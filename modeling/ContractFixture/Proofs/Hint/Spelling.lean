import ContractFixture.Proofs.Hint.Pairs
import Mathlib.Data.List.TakeWhile

/-! # How pairs are spelled -/

namespace ContractFixture.Hint

open Text (isAllBlank trim trimStart Flush Padded)

/-! ## Pairs that an annotation can hold -/

/-- The pairs can stand in one annotation. -/
structure Admissible (found : List Pair) : Prop where
  some : found ≠ []
  key : ∀ pair ∈ found, isKey pair.key = true
  pattern_last : ∀ pair ∈ found.dropLast, pair.key ≠ "regex".toList
  value : ∀ pair ∈ found, Flush pair.value
  unbroken : ∀ pair ∈ found, pair.key ≠ "regex".toList → Unbroken pair.value

theorem admissible_singleton_iff {pair : Pair} :
    Admissible [pair] ↔ isKey pair.key = true ∧ Flush pair.value ∧
      (pair.key = "regex".toList ∨ Unbroken pair.value) := by
  constructor
  · intro h
    have member := List.mem_singleton_self pair
    exact ⟨h.key _ member, h.value _ member, or_iff_not_imp_left.mpr (h.unbroken _ member)⟩
  · rintro ⟨key, value, whole⟩
    exact ⟨by simp, by simpa using key, by simp, by simpa using value,
      by simpa using or_iff_not_imp_left.mp whole⟩

theorem admissible_cons_iff {pair : Pair} {others : List Pair} (some : others ≠ []) :
    Admissible (pair :: others) ↔ (isKey pair.key = true ∧ Flush pair.value ∧
      pair.key ≠ "regex".toList ∧ Unbroken pair.value) ∧ Admissible others := by
  have front : (pair :: others).dropLast = pair :: others.dropLast :=
    List.dropLast_cons_of_ne_nil some
  constructor
  · rintro ⟨-, key, pattern_last, value, unbroken⟩
    rw [front] at pattern_last
    obtain ⟨key, keys⟩ := List.forall_mem_cons.mp key
    obtain ⟨other, others_other⟩ := List.forall_mem_cons.mp pattern_last
    obtain ⟨value, values⟩ := List.forall_mem_cons.mp value
    obtain ⟨unbroken, all_unbroken⟩ := List.forall_mem_cons.mp unbroken
    exact ⟨⟨key, value, other, unbroken other⟩, some, keys, others_other, values, all_unbroken⟩
  · rintro ⟨⟨key, value, other, unbroken⟩, -, keys, others_other, values, all_unbroken⟩
    refine ⟨by simp, List.forall_mem_cons.mpr ⟨key, keys⟩, ?_,
      List.forall_mem_cons.mpr ⟨value, values⟩,
      List.forall_mem_cons.mpr ⟨fun _ => unbroken, all_unbroken⟩⟩
    rw [front]
    exact List.forall_mem_cons.mpr ⟨other, others_other⟩

/-! ## Spellings -/

structure Spacing where
  beforeKey : List Char
  afterKey : List Char
  beforeValue : List Char
  blank_beforeKey : isAllBlank beforeKey = true
  blank_afterKey : isAllBlank afterKey = true
  blank_beforeValue : isAllBlank beforeValue = true

def Pair.spelled (pair : Pair) (s : Spacing) : List Char :=
  s.beforeKey ++ pair.key ++ s.afterKey ++ '=' :: (s.beforeValue ++ pair.value)

/-- The text of an annotation with these pairs, each with its white space. -/
def spelling (spaced : List (Pair × Spacing)) : List Char :=
  [','].intercalate (spaced.map fun e => e.1.spelled e.2)

theorem spelling_singleton (e : Pair × Spacing) : spelling [e] = e.1.spelled e.2 := by
  simp [spelling]

theorem spelling_cons (e : Pair × Spacing) {rest : List (Pair × Spacing)} (some : rest ≠ []) :
    spelling (e :: rest) = e.1.spelled e.2 ++ ',' :: spelling rest := by
  obtain ⟨next, rest, rfl⟩ := List.exists_cons_of_ne_nil some
  simp [spelling]

theorem written_iff {pair : Pair} {text : List Char} :
    pair.Written text ↔ isKey pair.key = true ∧ Flush pair.value ∧ ∃ s, pair.spelled s = text := by
  constructor
  · rintro ⟨key, value, -, blank'', ⟨blank, blank', h, h', rfl⟩, h'', rfl⟩
    exact ⟨key, value, ⟨blank, blank', blank'', h, h', h''⟩, rfl⟩
  · rintro ⟨key, value, s, rfl⟩
    exact ⟨key, value, _, s.beforeValue,
      ⟨s.beforeKey, s.afterKey, s.blank_beforeKey, s.blank_afterKey, rfl⟩, s.blank_beforeValue, rfl⟩

theorem renders_iff {found : List Pair} {text : List Char} :
    Renders found text ↔
      Admissible found ∧ ∃ spaced, spaced.map (·.1) = found ∧ spelling spaced = text := by
  constructor
  · intro h
    induction h with
    | last written whole =>
      obtain ⟨key, value, s, rfl⟩ := written_iff.mp written
      exact ⟨admissible_singleton_iff.mpr ⟨key, value, whole⟩, [(_, s)], rfl, spelling_singleton _⟩
    | cons written no_pattern unbroken renders ih =>
      obtain ⟨key, value, s, rfl⟩ := written_iff.mp written
      obtain ⟨admissible, spaced, rfl, rfl⟩ := ih
      have some : spaced ≠ [] := fun none => renders.ne_nil (by rw [none]; rfl)
      have all := (admissible_cons_iff renders.ne_nil).mpr
        ⟨⟨key, value, no_pattern, unbroken⟩, admissible⟩
      exact ⟨all, (_, s) :: spaced, rfl, spelling_cons _ some⟩
  · rintro ⟨admissible, spaced, rfl, rfl⟩
    induction spaced with
    | nil => exact absurd rfl admissible.some
    | cons e rest ih =>
      cases rest with
      | nil =>
        obtain ⟨key, value, whole⟩ := admissible_singleton_iff.mp admissible
        rw [spelling_singleton]
        exact .last (written_iff.mpr ⟨key, value, e.2, rfl⟩) whole
      | cons next rest =>
        obtain ⟨⟨key, value, no_pattern, unbroken⟩, others⟩ :=
          (admissible_cons_iff (by simp)).mp admissible
        rw [spelling_cons e (by simp)]
        exact .cons (written_iff.mpr ⟨key, value, e.2, rfl⟩) no_pattern unbroken (ih others)

/-! ## Where reading can fail -/

theorem written_of_pairFollows {text : List Char} (h : PairFollows text) :
    ∃ pair : Pair, pair.Written text := by
  obtain ⟨key, before, after, isKey, padded, rfl⟩ := h
  obtain ⟨flush, blank, isBlank, split⟩ := Text.trimStart_eq_iff.mp (rfl : trimStart after = _)
  exact ⟨⟨key, trimStart after⟩, isKey, flush, before, blank, padded, isBlank, by rw [← split]⟩

theorem exists_renders {text : List Char} (h : PairFollows text) : ∃ found, Renders found text := by
  -- A pair that is cut off leaves a shorter text, which begins like that again.
  induction length : text.length using Nat.strongRecOn generalizing text with
  | ind n ih =>
    obtain ⟨⟨key, value⟩, written⟩ := written_of_pairFollows h
    by_cases regex : key = "regex".toList
    · exact ⟨_, .last written (Or.inl regex)⟩
    · rcases unbroken_or_cut value with unbroken | ⟨front, rest, rfl, unbroken, follows⟩
      · exact ⟨_, .last written (Or.inr unbroken)⟩
      · obtain ⟨first, rfl, shorter⟩ := written_append_iff.mp written
        have less : rest.length < n := by
          rw [← length, List.length_append, List.length_cons]
          omega
        obtain ⟨others, renders⟩ := ih rest.length less follows rfl
        exact ⟨_, .cons shorter regex unbroken renders⟩

def beforeEquals (text : List Char) : List Char := text.takeWhile (· ≠ '=')

theorem beforeEquals_of_not_mem {text : List Char} (none : '=' ∉ text) :
    beforeEquals text = text := by
  rw [beforeEquals, List.takeWhile_eq_self_iff]
  intro c member
  simpa using ne_of_mem_of_not_mem member none

theorem beforeEquals_append {before : List Char} (none : '=' ∉ before) (after : List Char) :
    beforeEquals (before ++ '=' :: after) = before := by
  have inside : ∀ c ∈ before, decide (c ≠ '=') = true := fun c member => by
    simpa using ne_of_mem_of_not_mem member none
  rw [beforeEquals, List.takeWhile_append_of_pos inside]
  simp

theorem pairFollows_iff {text : List Char} :
    PairFollows text ↔ '=' ∈ text ∧ isKey (trim (beforeEquals text)) = true := by
  constructor
  · rintro ⟨key, before, after, isKey, padded, rfl⟩
    refine ⟨by simp, ?_⟩
    rwa [beforeEquals_append (no_equals_of_padded isKey padded), (trim_eq_key_iff isKey).mpr padded]
  · rintro ⟨equals, isKey⟩
    obtain ⟨before, after, rfl, none⟩ := List.eq_append_cons_of_mem equals
    rw [beforeEquals_append none] at isKey
    exact ⟨trim before, before, after, isKey, (trim_eq_key_iff isKey).mp rfl, rfl⟩

theorem exists_pairs_iff {text : List Char} :
    (∃ found, pairs text = .ok found) ↔ PairFollows text := by
  constructor
  · rintro ⟨found, h⟩
    exact (pairs_eq_ok_iff.mp h).pairFollows
  · intro h
    obtain ⟨found, renders⟩ := exists_renders h
    exact ⟨found, pairs_eq_ok_iff.mpr renders⟩

theorem pairs_of_not_pairFollows {text : List Char} (h : ¬ PairFollows text) :
    pairs text = .error (trim (beforeEquals text)) := by
  rw [pairFollows_iff] at h
  rw [pairs_eq]
  split
  · rename_i none
    have no_equals : '=' ∉ text := by
      intro equals
      obtain ⟨before, after, rfl, first⟩ := List.eq_append_cons_of_mem equals
      rw [splitAtEquals_eq_some_iff.mpr ⟨first, rfl⟩] at none
      cases none
    rw [beforeEquals_of_not_mem no_equals]
  · rename_i before after found
    obtain ⟨none, rfl⟩ := splitAtEquals_eq_some_iff.mp found
    rw [beforeEquals_append none] at h ⊢
    have no_key : isKey (trim before) = false := by simpa using h
    rw [pairsAfter, if_pos no_key]

theorem pairs_eq_error_iff {text segment : List Char} :
    pairs text = .error segment ↔ ¬ PairFollows text ∧ segment = trim (beforeEquals text) := by
  constructor
  · intro h
    have refused : ¬ PairFollows text := by
      rw [← exists_pairs_iff]
      rintro ⟨found, ok⟩
      rw [h] at ok
      cases ok
    rw [pairs_of_not_pairFollows refused] at h
    exact ⟨refused, (Except.error.inj h).symm⟩
  · rintro ⟨refused, rfl⟩
    exact pairs_of_not_pairFollows refused

/-- A text is read as exactly the pairs that it spells. It spells some if it begins with a key and
an equals sign, and if not, what stands there instead is the error. -/
theorem pairs_read_spelling (text : List Char) :
    (∀ found, pairs text = .ok found ↔
        Admissible found ∧ ∃ spaced, spaced.map (·.1) = found ∧ spelling spaced = text) ∧
      ((∃ found, pairs text = .ok found) ↔
        '=' ∈ text ∧ isKey (trim (beforeEquals text)) = true) ∧
      ∀ segment, pairs text = .error segment ↔
        ¬ ('=' ∈ text ∧ isKey (trim (beforeEquals text)) = true) ∧
          segment = trim (beforeEquals text) := by
  refine ⟨fun found => pairs_eq_ok_iff.trans renders_iff, ?_, fun segment => ?_⟩
  · rw [exists_pairs_iff, pairFollows_iff]
  · rw [pairs_eq_error_iff, pairFollows_iff]

example : pairs " a = x, y , regex= p,q=r".toList =
    .ok [⟨['a'], "x, y ".toList⟩, ⟨"regex".toList, "p,q=r".toList⟩] := by
  cbv

end ContractFixture.Hint
