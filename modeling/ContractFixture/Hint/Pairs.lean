import ContractFixture.Text.Blank

/-!
# The pairs of an annotation

A comma separates two pairs only where another key and its equals sign follow. The value of `regex`
runs to the end of the annotation.
-/

namespace ContractFixture.Hint

open Text (trim trimStart length_trimStart_le)

structure Pair where
  key : List Char
  value : List Char
deriving DecidableEq, Repr

def isKeyChar (c : Char) : Bool := c.isAlphanum || c = '_'

def isKey (text : List Char) : Bool := !text.isEmpty && text.all isKeyChar

/-- The text goes on with a key and an equals sign. -/
def beginsPair (text : List Char) : Bool :=
  let start := trimStart text
  !(start.takeWhile isKeyChar).isEmpty
    && (trimStart (start.dropWhile isKeyChar)).head? = some '='

def splitAtEquals : List Char → Option (List Char × List Char)
  | [] => none
  | c :: rest =>
    if c = '=' then some ([], rest)
    else (splitAtEquals rest).map fun (before, after) => (c :: before, after)

/-- The text before the first comma that another pair follows, and the text after that comma. -/
def splitAtPair : List Char → List Char × Option (List Char)
  | [] => ([], none)
  | c :: rest =>
    if c = ',' ∧ beginsPair rest = true then ([], some rest)
    else
      let (value, after) := splitAtPair rest
      (c :: value, after)

theorem length_lt_of_splitAtEquals {text before after : List Char}
    (h : splitAtEquals text = some (before, after)) : after.length < text.length := by
  induction text generalizing before with
  | nil => simp [splitAtEquals] at h
  | cons c rest ih =>
    simp only [splitAtEquals] at h
    split at h
    · simp only [Option.some.injEq, Prod.mk.injEq] at h
      simp [h.2]
    · simp only [Option.map_eq_some_iff, Prod.exists, Prod.mk.injEq] at h
      obtain ⟨_, _, found, _, rfl⟩ := h
      exact Nat.lt_succ_of_lt (ih found)

theorem length_le_of_splitAtPair {text value after : List Char}
    (h : splitAtPair text = (value, some after)) : after.length ≤ text.length := by
  induction text generalizing value with
  | nil => simp [splitAtPair] at h
  | cons c rest ih =>
    simp only [splitAtPair] at h
    split at h
    · simp only [Prod.mk.injEq, Option.some.injEq] at h
      simp [h.2]
    · simp only [Prod.mk.injEq] at h
      exact Nat.le_succ_of_le (@ih (splitAtPair rest).1 (by rw [← h.2]))

/-- The pairs of an annotation in order, or the text that stands where a pair should. -/
def pairs (text : List Char) : Except (List Char) (List Pair) :=
  match h : splitAtEquals text with
  | none => .error (trim text)
  | some (before, after) =>
    have := length_lt_of_splitAtEquals h
    have := length_trimStart_le after
    let key := trim before
    if isKey key = false then .error key
    else if key = "regex".toList then .ok [⟨key, trimStart after⟩]
    else
      match hp : splitAtPair (trimStart after) with
      | (value, none) => .ok [⟨key, value⟩]
      | (value, some rest) =>
        have := length_le_of_splitAtPair hp
        match pairs rest with
        | .error segment => .error segment
        | .ok others => .ok (⟨key, value⟩ :: others)
termination_by text.length
decreasing_by omega

end ContractFixture.Hint
