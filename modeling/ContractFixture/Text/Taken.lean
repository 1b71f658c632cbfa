/-! # Pieces of a text -/

namespace ContractFixture.Text

/-- A piece taken from the front of `text`, and what follows it. -/
structure Taken (α : Type) (text : List Char) where
  value : α
  rest : List Char
  shorter : rest.length < text.length

namespace Taken

variable {α β γ : Type} {text later : List Char}

def map (f : α → β) (t : Taken α text) : Taken β text :=
  ⟨f t.value, t.rest, t.shorter⟩

def first (c : Char) (rest : List Char) (value : α) : Taken α (c :: rest) :=
  ⟨value, rest, Nat.lt_succ_self _⟩

def after (c : Char) (t : Taken α text) : Taken α (c :: text) :=
  ⟨t.value, t.rest, Nat.lt_succ_of_lt t.shorter⟩

def widen (t : Taken α later) (h : later.length ≤ text.length) : Taken α text :=
  ⟨t.value, t.rest, Nat.lt_of_lt_of_le t.shorter h⟩

def join (t : Taken α text) (combine : α → β → γ) (next : Taken β t.rest) : Taken γ text :=
  ⟨combine t.value next.value, next.rest, Nat.lt_trans next.shorter t.shorter⟩

def skipTo (t : Taken α text) (after : List Char) (h : after.length ≤ t.rest.length) :
    Taken α text :=
  ⟨t.value, after, Nat.lt_of_le_of_lt h t.shorter⟩

def thenSkip (t : Taken α text) (skip : List Char → List Char)
    (h : ∀ rest, (skip rest).length ≤ rest.length) : Taken α text :=
  t.skipTo (skip t.rest) (h t.rest)

end Taken

end ContractFixture.Text
