import ContractFixture.Json.Document
import ContractFixture.Proofs.Except
import ContractFixture.Proofs.Json.Grammar

/-!
# What the readers of a document answer

The answer of a reader is stated without the bound on the rest, so that it can be rewritten when the
text is.
-/

namespace ContractFixture.Json.Reader

open Grammar
open Text (Taken)

variable {α β : Type}

abbrev Answer (α : Type) := Except Stop (α × List Char)

def answer {text : List Char} (r : Reading α text) : Answer α :=
  r.map fun taken => (taken.value, taken.rest)

/-! ## White space -/

theorem isBlank_iff {c : Char} :
    isBlank c = true ↔ c = ' ' ∨ c = '\n' ∨ c = '\t' ∨ c = '\r' := by
  simp [isBlank, or_assoc]

theorem blank_nil : Blank [] := fun _ member => absurd member List.not_mem_nil

theorem spaced_of_inner {P : List Char → α → Prop} {text : List Char} {x : α} (h : P text x) :
    Spaced P text x := by
  have spaced : Spaced P ([] ++ text) x := .mk blank_nil h
  exact spaced

theorem skipBlanks_append {blank : List Char} (white : Blank blank) (text : List Char) :
    skipBlanks (blank ++ text) = skipBlanks text :=
  List.dropWhile_append_of_pos fun c member => isBlank_iff.mpr (white c member)

theorem skipBlanks_of_blank {blank : List Char} (white : Blank blank) : skipBlanks blank = [] := by
  simpa [skipBlanks] using skipBlanks_append white []

theorem skipBlanks_cons {c : Char} (h : isBlank c = false) (rest : List Char) :
    skipBlanks (c :: rest) = c :: rest :=
  List.dropWhile_cons_of_neg (by simp [h])

theorem exists_blank (text : List Char) :
    ∃ blank, Blank blank ∧ text = blank ++ skipBlanks text := by
  refine ⟨text.takeWhile isBlank, fun c member => ?_, List.takeWhile_append_dropWhile.symm⟩
  exact isBlank_iff.mp (List.all_eq_true.mp List.all_takeWhile c member)

theorem exists_blank_of_skipBlanks {text rest : List Char} (h : skipBlanks text = rest) :
    ∃ blank, Blank blank ∧ text = blank ++ rest :=
  h ▸ exists_blank text

/-! ## Words -/

theorem answer_word_eq_ok_iff {value found : Json} {letter : Char} {letters text rest : List Char} :
    answer (word value letter letters text) = .ok (found, rest) ↔
      found = value ∧ text = letter :: letters ++ rest := by
  induction letters generalizing letter text with
  | nil =>
    cases text with
    | nil => simp [word, answer, stopAt, Except.map]
    | cons c text =>
      unfold word
      split
      · subst c
        simp [answer, Except.map, Taken.first, eq_comm]
      · rename_i other
        simp [answer, stopAt, Except.map, other]
  | cons next letters ih =>
    cases text with
    | nil => simp [word, answer, stopAt, Except.map]
    | cons c text =>
      unfold word
      split
      · subst c
        have step : answer (word value next letters text) = .ok (found, rest) ↔ _ := ih
        cases taken : word value next letters text with
        | error stop =>
          rw [taken] at step
          simpa [answer, Except.map] using step
        | ok t =>
          rw [taken] at step
          simpa [answer, Except.map, Taken.after] using step
      · rename_i other
        simp [answer, stopAt, Except.map, other]

/-! ## Containers -/

theorem answer_more (e : Enclosure) (piece : (text : List Char) → Reading α text)
    (text : List Char) :
    answer (more e piece text) =
      match skipBlanks text with
      | [] => stopAt e.atEnd []
      | c :: rest =>
        if c = e.close then .ok ([], rest)
        else if c = ',' then
          if (skipBlanks rest).head? = some e.close then stopAt .trailingComma (skipBlanks rest)
          else
            (answer (piece rest)).bind fun (x, rest) =>
              (answer (more e piece rest)).map fun (xs, rest) => (x :: xs, rest)
        else stopAt e.elsewhere (c :: rest) := by
  rw [more]
  split
  · rename_i h
    rw [h]
    rfl
  · rename_i c rest h
    simp only [h]
    split
    · rfl
    · split
      · split
        · rfl
        · cases piece rest with
          | error stop => rfl
          | ok first =>
            dsimp only [answer, Except.map, Except.bind]
            cases more e piece first.rest <;> rfl
      · rfl

theorem answer_enclosed (e : Enclosure) (piece : (text : List Char) → Reading α text)
    (text : List Char) :
    answer (enclosed e piece text) =
      match skipBlanks text with
      | [] => stopAt e.atEnd []
      | c :: rest =>
        if c = e.close then .ok ([], rest)
        else
          (answer (piece text)).bind fun (x, rest) =>
            (answer (more e piece rest)).map fun (xs, rest) => (x :: xs, rest) := by
  rw [enclosed]
  split
  · rename_i h
    rw [h]
    rfl
  · rename_i c rest h
    simp only [h]
    split
    · rfl
    · cases piece text with
      | error stop => rfl
      | ok first =>
        dsimp only [answer, Except.map, Except.bind]
        cases more e piece first.rest <;> rfl

/-! ## Allowances -/

/-- Where an allowance of `n` containers is left, a piece with `depth` of them inside each other is
taken as `x`, or refused as too deep. -/
structure TakenWithin (n depth : Nat) (x : α) (rest : List Char) (a : Answer α) : Prop where
  taken : depth ≤ n → a = .ok (x, rest)
  refused : n < depth → ∃ stop, a = .error stop ∧ stop.fault = .tooDeep

theorem TakenWithin.of_eq {n : Nat} {x : α} {rest : List Char} {a : Answer α}
    (h : a = .ok (x, rest)) : TakenWithin n 0 x rest a :=
  ⟨fun _ => h, fun below => absurd below (Nat.not_lt_zero n)⟩

theorem TakenWithin.succ {n depth : Nat} {x : α} {rest : List Char} {a : Answer α}
    (h : TakenWithin n depth x rest a) : TakenWithin (n + 1) (depth + 1) x rest a :=
  ⟨fun within => h.taken (Nat.le_of_succ_le_succ within),
    fun beyond => h.refused (Nat.lt_of_succ_lt_succ beyond)⟩

theorem TakenWithin.map {n depth : Nat} {x : α} {rest : List Char} {a : Answer α}
    (h : TakenWithin n depth x rest a) (f : α → β) :
    TakenWithin n depth (f x) rest (a.map fun (x, rest) => (f x, rest)) := by
  constructor
  · intro within
    rw [h.taken within]
    rfl
  · intro beyond
    obtain ⟨stop, rfl, deep⟩ := h.refused beyond
    exact ⟨stop, rfl, deep⟩

theorem TakenWithin.bind {n d e : Nat} {x : α} {y : β} {rest rest' : List Char} {a : Answer α}
    {next : α × List Char → Answer β} (first : TakenWithin n d x rest a)
    (second : TakenWithin n e y rest' (next (x, rest))) :
    TakenWithin n (max d e) y rest' (a.bind next) := by
  constructor
  · intro within
    rw [first.taken (by omega)]
    exact second.taken (by omega)
  · intro beyond
    by_cases deep : n < d
    · obtain ⟨stop, rfl, fault⟩ := first.refused deep
      exact ⟨stop, rfl, fault⟩
    · rw [first.taken (by omega)]
      exact second.refused (by omega)

/-! ## Readers for a part of the grammar -/

def Unextended (rest : List Char) : Prop :=
  ∀ c ∈ rest.head?, c.isDigit = false ∧ c ≠ '.' ∧ c ≠ 'e' ∧ c ≠ 'E'

/-- The reader takes what `P` describes from the front of a text and nothing else, but refuses what
nests deeper than its allowance. -/
structure Reads (n : Nat) (depthOf : α → Nat) (P : List Char → α → Prop)
    (piece : (text : List Char) → Reading α text) : Prop where
  sound : ∀ {text rest : List Char} {x : α}, answer (piece text) = .ok (x, rest) →
    ∃ front, P front x ∧ depthOf x ≤ n ∧ text = front ++ rest
  complete : ∀ {front rest : List Char} {x : α}, P front x → Unextended rest →
    TakenWithin n (depthOf x) x rest (answer (piece (front ++ rest)))

def deepest (depthOf : α → Nat) (pieces : List α) : Nat :=
  pieces.foldr (fun x d => max (depthOf x) d) 0

theorem unextended_nil : Unextended [] := by
  intro c member
  cases member

theorem unextended_cons_iff {c : Char} {rest : List Char} :
    Unextended (c :: rest) ↔ c.isDigit = false ∧ c ≠ '.' ∧ c ≠ 'e' ∧ c ≠ 'E' := by
  simp [Unextended]

theorem unextended_append {blank rest : List Char} (white : Blank blank) (h : Unextended rest) :
    Unextended (blank ++ rest) := by
  cases blank with
  | nil => exact h
  | cons b blank =>
    rw [List.cons_append, unextended_cons_iff]
    rcases white b (List.mem_cons_self ..) with rfl | rfl | rfl | rfl <;> decide

theorem unextended_of_blank {blank : List Char} (white : Blank blank) : Unextended blank := by
  have unextended := unextended_append white unextended_nil
  rwa [List.append_nil] at unextended

section

variable {n : Nat} {depthOf : α → Nat} {P : List Char → α → Prop} {e : Enclosure}
  {piece : (text : List Char) → Reading α text}

theorem more_sound (reads : Reads n depthOf P piece) {text rest : List Char} {xs : List α}
    (h : answer (more e piece text) = .ok (xs, rest)) :
    ∃ front, More e.close P front xs ∧ deepest depthOf xs ≤ n ∧ text = front ++ rest := by
  -- What follows a piece is shorter than the text before the piece.
  induction length : text.length using Nat.strongRecOn generalizing text xs with
  | _ size ih =>
  rw [answer_more] at h
  split at h
  · cases h
  · rename_i c behind start
    obtain ⟨blank, white, rfl⟩ := exists_blank_of_skipBlanks start
    split at h
    · subst c
      cases h
      exact ⟨_, .close white, Nat.zero_le n, by simp⟩
    · split at h
      · subst c
        split at h
        · cases h
        · obtain ⟨⟨x, rest'⟩, first, h⟩ := bind_eq_ok h
          obtain ⟨⟨others, rest''⟩, next, h⟩ := map_eq_ok h
          cases h
          obtain ⟨front, isPiece, within, rfl⟩ := reads.sound first
          have shorter : (blank ++ ',' :: (front ++ rest')).length = size := length
          obtain ⟨front', isMore, within', rfl⟩ := ih rest'.length (by simp at shorter; omega)
            next rfl
          exact ⟨_, .next white isPiece isMore, Nat.max_le.mpr ⟨within, within'⟩, by simp⟩
      · cases h

def Opens (close : Char) (P : List Char → α → Prop) : Prop :=
  ∀ front rest x, P front x → ∃ c behind, skipBlanks (front ++ rest) = c :: behind ∧ c ≠ close

variable (closing : e.close = ']' ∨ e.close = '}')

include closing

theorem closing_not_blank : isBlank e.close = false := by
  rcases closing with h | h <;> rw [h] <;> rfl

theorem unextended_more {front : List Char} {xs : List α} (h : More e.close P front xs)
    (rest : List Char) : Unextended (front ++ rest) := by
  cases h with
  | close white =>
    rw [List.append_assoc]
    apply unextended_append white
    rw [List.singleton_append, unextended_cons_iff]
    rcases closing with h | h <;> rw [h] <;> decide
  | next white =>
    rw [List.append_assoc, List.append_assoc]
    exact unextended_append white (unextended_cons_iff.mpr (by decide))

variable (reads : Reads n depthOf P piece) (opens : Opens e.close P)

include reads opens

theorem more_complete {front rest : List Char} {xs : List α} (h : More e.close P front xs) :
    TakenWithin n (deepest depthOf xs) xs rest (answer (more e piece (front ++ rest))) := by
  have no_comma : ',' ≠ e.close := by rcases closing with h | h <;> rw [h] <;> decide
  induction h with
  | close white =>
    apply TakenWithin.of_eq
    rw [answer_more, List.append_assoc, skipBlanks_append white, List.singleton_append,
      skipBlanks_cons (closing_not_blank closing)]
    simp
  | @next blank text others x xs white isPiece isMore ih =>
    obtain ⟨c, behind, start, apart⟩ := opens text (others ++ rest) x isPiece
    have follows := unextended_more closing isMore rest
    rw [answer_more]
    simp only [List.append_assoc, List.cons_append]
    rw [skipBlanks_append white, skipBlanks_cons (by rfl)]
    simp only [no_comma, if_false, if_true, start, List.head?_cons, Option.some.injEq, apart]
    exact (reads.complete isPiece follows).bind (ih.map (x :: ·))

/-- The reader of a container is as good as the reader of its pieces. -/
theorem reads_enclosed :
    Reads n (deepest depthOf) (Enclosed e.close P) (enclosed e piece) := by
  constructor
  · intro text rest xs h
    rw [answer_enclosed] at h
    split at h
    · cases h
    · rename_i c behind start
      split at h
      · subst c
        cases h
        obtain ⟨blank, white, rfl⟩ := exists_blank_of_skipBlanks start
        exact ⟨_, .empty white, Nat.zero_le n, by simp⟩
      · obtain ⟨⟨x, rest'⟩, first, h⟩ := bind_eq_ok h
        obtain ⟨⟨others, rest''⟩, next, h⟩ := map_eq_ok h
        cases h
        obtain ⟨front, isPiece, within, rfl⟩ := reads.sound first
        obtain ⟨front', isMore, within', rfl⟩ := more_sound reads next
        exact ⟨_, .pieces isPiece isMore, Nat.max_le.mpr ⟨within, within'⟩, by simp⟩
  · intro front rest xs h _
    cases h with
    | empty white =>
      apply TakenWithin.of_eq
      rw [answer_enclosed, List.append_assoc, skipBlanks_append white, List.singleton_append,
        skipBlanks_cons (closing_not_blank closing)]
      simp
    | @pieces text others x xs isPiece isMore =>
      obtain ⟨c, behind, start, apart⟩ := opens text (others ++ rest) x isPiece
      have follows := unextended_more closing isMore rest
      rw [answer_enclosed, List.append_assoc]
      simp only [start, apart, if_false]
      have next : TakenWithin n (deepest depthOf xs) xs rest
          (answer (more e piece (others ++ rest))) :=
        more_complete closing reads opens isMore
      exact (reads.complete isPiece follows).bind (next.map (x :: ·))

end

end ContractFixture.Json.Reader
