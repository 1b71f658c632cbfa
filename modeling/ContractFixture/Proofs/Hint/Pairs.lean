import ContractFixture.Hint.Pairs
import ContractFixture.Proofs.Text.Blank

/-! # Pairs and their text -/

namespace ContractFixture.Hint

open Text (isBlank isAllBlank trim trimStart Flush Padded)

/-! ## Keys -/

theorem isKey_iff {text : List Char} :
    isKey text = true ↔ text ≠ [] ∧ ∀ c ∈ text, isKeyChar c = true := by
  simp [isKey]

theorem toNat_of_isKeyChar {c : Char} (h : isKeyChar c = true) : 32 < c.toNat ∧ c.toNat < 128 := by
  have ranges : c.isAlphanum =
      ((decide (c.val ≥ 'A'.val ∧ c.val ≤ 'Z'.val) ||
          decide (c.val ≥ 'a'.val) && decide (c.val ≤ 'z'.val)) ||
        decide (c.val ≥ '0'.val) && decide (c.val ≤ '9'.val)) := rfl
  simp only [isKeyChar, ranges, Bool.or_eq_true, Bool.and_eq_true, decide_eq_true_eq,
    UInt32.le_iff_toNat_le, ge_iff_le] at h
  change ((65 ≤ c.toNat ∧ c.toNat ≤ 90 ∨ 97 ≤ c.toNat ∧ c.toNat ≤ 122) ∨
    48 ≤ c.toNat ∧ c.toNat ≤ 57) ∨ c = '_' at h
  rcases h with range | rfl
  · omega
  · decide

theorem isBlank_eq_false_of_isKeyChar {c : Char} (h : isKeyChar c = true) : isBlank c = false := by
  have range := toNat_of_isKeyChar h
  simp [isBlank, Text.loneBlanks]
  omega

theorem isKeyChar_eq_false_of_isBlank {c : Char} (h : isBlank c = true) : isKeyChar c = false := by
  cases key : isKeyChar c with
  | false => rfl
  | true =>
    rw [isBlank_eq_false_of_isKeyChar key] at h
    cases h

section

variable {key text : List Char} (isKey : isKey key = true)

include isKey

theorem flush_key : Flush key := by
  intro c first
  exact isBlank_eq_false_of_isKeyChar ((isKey_iff.mp isKey).2 c (List.mem_of_head? first))

theorem trim_eq_key_iff : trim text = key ↔ Padded key text := by
  have ending : Flush key.reverse := by
    apply flush_key
    simpa [isKey_iff] using isKey
  rw [Text.trim_eq_iff (isKey_iff.mp isKey).1]
  simp [flush_key isKey, ending]

theorem not_mem_padded_key {c : Char} (no_blank : isBlank c = false) (no_key : isKeyChar c = false)
    (padded : Padded key text) : c ∉ text := by
  intro member
  rcases Text.mem_padded padded member with blank | inside
  · rw [no_blank] at blank
    cases blank
  · rw [(isKey_iff.mp isKey).2 c inside] at no_key
    cases no_key

theorem no_equals_of_padded (padded : Padded key text) : '=' ∉ text :=
  not_mem_padded_key isKey (by decide) (by decide) padded

theorem no_comma_of_padded (padded : Padded key text) : ',' ∉ text :=
  not_mem_padded_key isKey (by decide) (by decide) padded

end

/-! ## The first equals sign -/

theorem splitAtEquals_eq_some_iff {text before after : List Char} :
    splitAtEquals text = some (before, after) ↔ '=' ∉ before ∧ text = before ++ '=' :: after := by
  induction text generalizing before with
  | nil => simp [splitAtEquals]
  | cons c rest ih =>
    unfold splitAtEquals
    split
    · subst c
      cases before with
      | nil => simp [eq_comm]
      | cons first before => simp +contextual [eq_comm]
    · rename_i other
      cases before with
      | nil => simp [other]
      | cons first before =>
        simp only [Option.map_eq_some_iff, Prod.exists, Prod.mk.injEq, List.cons.injEq]
        constructor
        · rintro ⟨before, after, found, ⟨rfl, rfl⟩, rfl⟩
          obtain ⟨no_equals, rfl⟩ := ih.mp found
          exact ⟨by simp [no_equals, Ne.symm other], by simp⟩
        · rintro ⟨no_equals, split⟩
          obtain ⟨rfl, rest⟩ := List.cons.inj split
          exact ⟨before, after, ih.mpr ⟨by simp_all, rest⟩, ⟨rfl, rfl⟩, rfl⟩

/-! ## The next pair -/

def PairFollows (text : List Char) : Prop :=
  ∃ key before after, isKey key = true ∧ Padded key before ∧ text = before ++ '=' :: after

theorem takeWhile_isKeyChar {key rest : List Char} (inside : ∀ c ∈ key, isKeyChar c = true)
    (boundary : ∀ c ∈ rest.head?, isKeyChar c = false) :
    (key ++ rest).takeWhile isKeyChar = key ∧ (key ++ rest).dropWhile isKeyChar = rest := by
  rw [List.takeWhile_append_of_pos inside, List.dropWhile_append_of_pos inside]
  cases rest with
  | nil => simp
  | cons c rest => simp [boundary c rfl]

theorem beginsPair_iff {text : List Char} : beginsPair text = true ↔ PairFollows text := by
  constructor
  · intro h
    simp only [beginsPair, Bool.and_eq_true, Bool.not_eq_true', List.isEmpty_eq_false_iff,
      decide_eq_true_eq] at h
    obtain ⟨some, equals⟩ := h
    obtain ⟨-, blank, isBlank, start⟩ := Text.trimStart_eq_iff.mp (rfl : trimStart text = _)
    obtain ⟨after, ends⟩ := List.head?_eq_some_iff.mp equals
    obtain ⟨-, blank', isBlank', rest⟩ := Text.trimStart_eq_iff.mp ends
    refine ⟨_, _, after, isKey_iff.mpr ⟨some, List.all_eq_true.mp List.all_takeWhile⟩,
      ⟨blank, blank', isBlank, isBlank', rfl⟩, ?_⟩
    rw [List.append_assoc, List.append_assoc, ← rest, List.takeWhile_append_dropWhile]
    exact start
  · rintro ⟨key, before, after, isKey, ⟨blank, blank', isBlank, isBlank', rfl⟩, rfl⟩
    obtain ⟨some, inside⟩ := isKey_iff.mp isKey
    have start : trimStart (blank ++ key ++ blank' ++ '=' :: after) =
        key ++ (blank' ++ '=' :: after) := by
      refine Text.trimStart_eq_iff.mpr ⟨(flush_key isKey).append some _, blank, isBlank, ?_⟩
      simp
    -- The key ends where white space or the equals sign begins.
    have boundary : ∀ c ∈ (blank' ++ '=' :: after).head?, isKeyChar c = false := by
      cases blank' with
      | nil =>
        rintro c ⟨⟩
        decide
      | cons first blank' =>
        rintro c ⟨⟩
        exact isKeyChar_eq_false_of_isBlank (Text.isAllBlank_iff.mp isBlank' _ (by simp))
    have ends : trimStart (blank' ++ '=' :: after) = '=' :: after :=
      Text.trimStart_eq_iff.mpr ⟨by rintro c ⟨⟩; decide, blank', isBlank', rfl⟩
    obtain ⟨taken, left⟩ := takeWhile_isKeyChar inside boundary
    simp only [beginsPair, start, taken, left, ends]
    simpa using some

theorem PairFollows.not_blank {text : List Char} (h : PairFollows text) :
    isAllBlank text = false := by
  obtain ⟨key, before, after, -, -, rfl⟩ := h
  have equals : isBlank '=' = false := by decide
  simp [isAllBlank, equals]

theorem pairFollows_append_comma_iff {text rest : List Char} :
    PairFollows (text ++ ',' :: rest) ↔ PairFollows text := by
  constructor
  · rintro ⟨key, before, after, isKey, padded, whole⟩
    have no_comma := no_comma_of_padded isKey padded
    -- So the comma comes after the equals sign, and the pair stands before it.
    rcases List.append_eq_append_iff.mp whole with ⟨taken, rfl, split⟩ | ⟨taken, rfl, split⟩
    · cases taken with
      | nil => simp at split
      | cons first taken =>
        obtain ⟨rfl, -⟩ := List.cons.inj split
        exact absurd (by simp) no_comma
    · cases taken with
      | nil => simp at split
      | cons first taken =>
        obtain ⟨rfl, -⟩ := List.cons.inj split
        exact ⟨key, before, taken, isKey, padded, rfl⟩
  · rintro ⟨key, before, after, isKey, padded, rfl⟩
    exact ⟨key, before, after ++ ',' :: rest, isKey, padded, by simp⟩

/-- No comma of the text is followed by another pair. -/
def Unbroken (text : List Char) : Prop :=
  ∀ front back, text = front ++ ',' :: back → ¬ PairFollows back

theorem unbroken_nil : Unbroken [] := by
  intro front back split
  simp at split

theorem unbroken_cons_iff {c : Char} {rest : List Char} :
    Unbroken (c :: rest) ↔ (c = ',' → ¬ PairFollows rest) ∧ Unbroken rest := by
  constructor
  · intro h
    refine ⟨?_, fun front back split => h (c :: front) back (by simp [split])⟩
    rintro rfl
    exact h [] rest rfl
  · rintro ⟨here, below⟩ front back split
    cases front with
    | nil =>
      obtain ⟨rfl, rfl⟩ := List.cons.inj split
      exact here rfl
    | cons first front =>
      obtain ⟨-, split⟩ := List.cons.inj split
      exact below front back split

theorem unbroken_or_cut (text : List Char) :
    Unbroken text ∨ ∃ value rest, text = value ++ ',' :: rest ∧ Unbroken value ∧
      PairFollows rest := by
  induction text with
  | nil => exact Or.inl unbroken_nil
  | cons c rest ih =>
    by_cases cut : c = ',' ∧ PairFollows rest
    · obtain ⟨rfl, follows⟩ := cut
      exact Or.inr ⟨[], rest, rfl, unbroken_nil, follows⟩
    · rcases ih with unbroken | ⟨value, after, rfl, unbroken, follows⟩
      · exact Or.inl (unbroken_cons_iff.mpr ⟨fun comma follows => cut ⟨comma, follows⟩, unbroken⟩)
      · refine Or.inr ⟨c :: value, after, rfl, unbroken_cons_iff.mpr ⟨?_, unbroken⟩, follows⟩
        intro comma inside
        exact cut ⟨comma, pairFollows_append_comma_iff.mpr inside⟩

theorem splitAtPair_of_unbroken {text : List Char} (h : Unbroken text) :
    splitAtPair text = (text, none) := by
  induction text with
  | nil => rfl
  | cons c rest ih =>
    obtain ⟨here, below⟩ := unbroken_cons_iff.mp h
    have stays : ¬ (c = ',' ∧ beginsPair rest = true) :=
      fun cut => here cut.1 (beginsPair_iff.mp cut.2)
    rw [splitAtPair, if_neg stays, ih below]

theorem splitAtPair_append {value rest : List Char} (h : Unbroken value)
    (follows : PairFollows rest) : splitAtPair (value ++ ',' :: rest) = (value, some rest) := by
  induction value with
  | nil => rw [List.nil_append, splitAtPair, if_pos ⟨rfl, beginsPair_iff.mpr follows⟩]
  | cons c value ih =>
    obtain ⟨here, below⟩ := unbroken_cons_iff.mp h
    have stays : ¬ (c = ',' ∧ beginsPair (value ++ ',' :: rest) = true) :=
      fun cut => here cut.1 (pairFollows_append_comma_iff.mp (beginsPair_iff.mp cut.2))
    rw [List.cons_append, splitAtPair, if_neg stays, ih below]

/-! ## Pairs -/

def pairsAfter (key tail : List Char) : Except (List Char) (List Pair) :=
  if isKey key = false then .error key
  else if key = "regex".toList then .ok [⟨key, tail⟩]
  else
    match splitAtPair tail with
    | (value, none) => .ok [⟨key, value⟩]
    | (value, some rest) => (pairs rest).map (⟨key, value⟩ :: ·)

theorem pairs_eq (text : List Char) :
    pairs text =
      match splitAtEquals text with
      | none => .error (trim text)
      | some (before, after) => pairsAfter (trim before) (trimStart after) := by
  rw [pairs]
  split
  · rename_i none
    simp only [none]
  · rename_i before after found
    simp only [found, pairsAfter]
    split
    · rfl
    · split
      · rfl
      · split
        · rename_i value last
          simp only [last]
        · rename_i value rest more
          simp only [more]
          cases pairs rest <;> rfl

/-- The text is the pair with white space around its key and before its value. -/
structure Pair.Written (pair : Pair) (text : List Char) : Prop where
  key : isKey pair.key = true
  value : Flush pair.value
  text : ∃ before blank, Padded pair.key before ∧ isAllBlank blank = true ∧
    text = before ++ '=' :: (blank ++ pair.value)

theorem pairs_of_written {pair : Pair} {text : List Char} (h : pair.Written text) :
    pairs text = pairsAfter pair.key pair.value := by
  obtain ⟨isKey, flush, before, blank, padded, isBlank, rfl⟩ := h
  have found : splitAtEquals (before ++ '=' :: (blank ++ pair.value)) = some (before, _) :=
    splitAtEquals_eq_some_iff.mpr ⟨no_equals_of_padded isKey padded, rfl⟩
  have tail : trimStart (blank ++ pair.value) = pair.value :=
    Text.trimStart_eq_iff.mpr ⟨flush, blank, isBlank, rfl⟩
  rw [pairs_eq, found]
  simp only [(trim_eq_key_iff isKey).mpr padded, tail]

theorem written_of_pairs {text : List Char} {found : List Pair} (h : pairs text = .ok found) :
    ∃ pair : Pair, pair.Written text ∧ pairsAfter pair.key pair.value = .ok found := by
  rw [pairs_eq] at h
  split at h
  · cases h
  · rename_i before after equals
    refine ⟨⟨trim before, trimStart after⟩, ?_, h⟩
    have isKey : isKey (trim before) = true := by
      refine Decidable.byContradiction fun no => ?_
      unfold pairsAfter at h
      rw [if_pos (by simpa using no)] at h
      cases h
    obtain ⟨flush, blank, isBlank, rest⟩ := Text.trimStart_eq_iff.mp (rfl : trimStart after = _)
    obtain ⟨-, rfl⟩ := splitAtEquals_eq_some_iff.mp equals
    exact ⟨isKey, flush, before, blank, (trim_eq_key_iff isKey).mp rfl, isBlank, by rw [← rest]⟩

/-- The text is one that an annotation with these pairs can have. -/
inductive Renders : List Pair → List Char → Prop
  | last {pair : Pair} {text : List Char} (written : pair.Written text)
      (whole : pair.key = "regex".toList ∨ Unbroken pair.value) : Renders [pair] text
  | cons {pair : Pair} {others : List Pair} {text rest : List Char} (written : pair.Written text)
      (no_pattern : pair.key ≠ "regex".toList) (unbroken : Unbroken pair.value)
      (renders : Renders others rest) : Renders (pair :: others) (text ++ ',' :: rest)

theorem Pair.Written.pairFollows {pair : Pair} {text : List Char} (h : pair.Written text) :
    PairFollows text := by
  obtain ⟨isKey, -, before, blank, padded, -, rfl⟩ := h
  exact ⟨pair.key, before, _, isKey, padded, rfl⟩

theorem Renders.ne_nil {found : List Pair} {text : List Char} (h : Renders found text) :
    found ≠ [] := by
  cases h <;> simp

theorem Renders.pairFollows {found : List Pair} {text : List Char} (h : Renders found text) :
    PairFollows text := by
  cases h with
  | last written => exact written.pairFollows
  | cons written => exact pairFollows_append_comma_iff.mpr written.pairFollows

theorem renders_singleton_iff {pair : Pair} {text : List Char} :
    Renders [pair] text ↔
      pair.Written text ∧ (pair.key = "regex".toList ∨ Unbroken pair.value) := by
  constructor
  · intro h
    cases h with
    | last written whole => exact ⟨written, whole⟩
    | cons _ _ _ renders => exact absurd rfl renders.ne_nil
  · rintro ⟨written, whole⟩
    exact .last written whole

theorem written_append_iff {key value rest text : List Char} :
    (⟨key, value ++ ',' :: rest⟩ : Pair).Written text ↔
      ∃ front, text = front ++ ',' :: rest ∧ (⟨key, value⟩ : Pair).Written front := by
  have flush : Flush (value ++ ',' :: rest) ↔ Flush value := by
    cases value with
    | nil => simp [Flush, isBlank, Text.loneBlanks]
    | cons c value => rfl
  constructor
  · rintro ⟨isKey, start, before, blank, padded, isBlank, rfl⟩
    exact ⟨before ++ '=' :: (blank ++ value), by simp, isKey, flush.mp start, before, blank, padded,
      isBlank, rfl⟩
  · rintro ⟨front, rfl, isKey, start, before, blank, padded, isBlank, rfl⟩
    exact ⟨isKey, flush.mpr start, before, blank, padded, isBlank, by simp⟩

theorem pairsAfter_regex {value : List Char} :
    pairsAfter "regex".toList value = .ok [⟨"regex".toList, value⟩] := rfl

theorem pairsAfter_other {key value : List Char} (isKey : isKey key = true)
    (other : key ≠ "regex".toList) :
    pairsAfter key value =
      match splitAtPair value with
      | (value, none) => .ok [⟨key, value⟩]
      | (value, some rest) => (pairs rest).map (⟨key, value⟩ :: ·) := by
  rw [pairsAfter, if_neg (by simp [isKey]), if_neg other]

theorem pairs_step {text : List Char} {found : List Pair} (h : pairs text = .ok found) :
    (∃ pair : Pair, found = [pair] ∧ pair.Written text ∧
        (pair.key = "regex".toList ∨ Unbroken pair.value)) ∨
      ∃ (pair : Pair) (others : List Pair) (front rest : List Char), found = pair :: others ∧
        text = front ++ ',' :: rest ∧ pair.Written front ∧ pair.key ≠ "regex".toList ∧
        Unbroken pair.value ∧ pairs rest = .ok others := by
  obtain ⟨⟨key, tail⟩, written, after⟩ := written_of_pairs h
  by_cases regex : key = "regex".toList
  · subst regex
    cases after
    exact Or.inl ⟨_, rfl, written, Or.inl rfl⟩
  · rw [pairsAfter_other written.key regex] at after
    rcases unbroken_or_cut tail with unbroken | ⟨value, rest, rfl, unbroken, follows⟩
    · rw [splitAtPair_of_unbroken unbroken] at after
      cases after
      exact Or.inl ⟨_, rfl, written, Or.inr unbroken⟩
    · rw [splitAtPair_append unbroken follows] at after
      obtain ⟨front, rfl, shorter⟩ := written_append_iff.mp written
      cases read : pairs rest with
      | error segment => simp [read, Except.map] at after
      | ok others =>
        simp only [read, Except.map, Except.ok.injEq] at after
        exact Or.inr ⟨_, others, front, rest, after.symm, rfl, shorter, regex, unbroken, read⟩

/-- A text is read as pairs exactly if it is one that an annotation with them can have. -/
theorem pairs_eq_ok_iff {text : List Char} {found : List Pair} :
    pairs text = .ok found ↔ Renders found text := by
  -- The reading is followed pair by pair, the writing rule by rule.
  constructor
  · intro h
    induction found generalizing text with
    | nil =>
      rcases pairs_step h with ⟨_, none, _⟩ | ⟨_, _, _, _, none, _⟩ <;> cases none
    | cons pair others ih =>
      rcases pairs_step h with ⟨_, same, written, whole⟩ |
        ⟨_, _, front, rest, same, rfl, written, no_pattern, unbroken, read⟩
      · cases same
        exact .last written whole
      · cases same
        exact .cons written no_pattern unbroken (ih read)
  · intro h
    induction h with
    | @last pair text written whole =>
      rw [pairs_of_written written]
      by_cases regex : pair.key = "regex".toList
      · rw [regex, pairsAfter_regex, ← regex]
      · have unbroken := whole.resolve_left regex
        rw [pairsAfter_other written.key regex, splitAtPair_of_unbroken unbroken]
    | @cons pair others text rest written no_pattern unbroken renders ih =>
      have longer : (⟨pair.key, pair.value ++ ',' :: rest⟩ : Pair).Written (text ++ ',' :: rest) :=
        written_append_iff.mpr ⟨text, rfl, written⟩
      rw [pairs_of_written longer, pairsAfter_other written.key no_pattern,
        splitAtPair_append unbroken renders.pairFollows]
      simp only [ih]
      rfl

end ContractFixture.Hint
