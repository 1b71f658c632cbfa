import ContractFixture.Proofs.Json.Reading

/-! # Numerals -/

namespace ContractFixture

/-! ## The number of a numeral -/

namespace Numeral

theorem int?_eq_some_iff {n : Numeral} {value : Int} : n.int? = some value ↔ n.IsWord value := by
  obtain ⟨negative, whole, fraction, exponent⟩ := n
  constructor
  · intro h
    cases fraction with
    | some digits => cases h
    | none =>
      cases exponent with
      | some e => cases h
      | none =>
        simp only [int?] at h
        split at h
        · rename_i minus
          split at h
          · rename_i within
            obtain ⟨positive, within⟩ := within
            rw [IntegerWidth.contains_i64_iff] at within
            obtain rfl := Option.some.inj h
            exact ⟨rfl, rfl, (if_pos minus).symm, by omega, by omega, by omega⟩
          · cases h
        · rename_i plus
          split at h
          · rename_i within
            rw [IntegerWidth.contains_u64_iff] at within
            obtain rfl := Option.some.inj h
            exact ⟨rfl, rfl, (if_neg plus).symm, fun minus => plus minus.1, by omega, by omega⟩
          · cases h
  · rintro ⟨rfl, rfl, denoted, no_signed_zero, low, high⟩
    dsimp only at denoted no_signed_zero
    simp only [int?]
    split
    · rename_i minus
      have nonzero : value ≠ 0 := fun zero => no_signed_zero ⟨minus, zero⟩
      rw [if_pos minus] at denoted
      rw [if_pos, denoted]
      rw [IntegerWidth.contains_i64_iff]
      omega
    · rename_i plus
      rw [if_neg plus] at denoted
      rw [if_pos, denoted]
      rw [IntegerWidth.contains_u64_iff]
      omega

theorem number?_eq_some_iff {n : Numeral} {x : Number} : n.number? = some x ↔ n.Denotes x := by
  unfold number?
  cases word : n.int? with
  | some value =>
    have isWord := int?_eq_some_iff.mp word
    constructor
    · rintro ⟨⟩
      exact .word isWord
    · intro denoted
      cases denoted with
      | word other =>
        rw [int?_eq_some_iff.mpr other] at word
        rw [Option.some.inj word]
      | double _ no_word => exact absurd isWord (no_word value)
  | none =>
    have no_word : ∀ value, ¬ n.IsWord value := by
      intro value h
      rw [int?_eq_some_iff.mpr h] at word
      cases word
    constructor
    · intro h
      obtain ⟨y, converted, h⟩ := Option.bind_eq_some_iff.mp h
      split at h
      · rename_i finite
        cases h
        exact .double finite no_word converted
      · cases h
    · intro denoted
      cases denoted with
      | word other => exact absurd other (no_word _)
      | double finite _ converted => simp [converted, finite]

end Numeral

namespace Json.Reader

open Grammar

/-! ## Runs of digits -/

def NoDigit (rest : List Char) : Prop := ∀ c ∈ rest.head?, c.isDigit = false

theorem digits_append {found rest : List Char} (all : ∀ c ∈ found, c.isDigit = true)
    (stop : NoDigit rest) :
    digits (found ++ rest) = found ∧ afterDigits (found ++ rest) = rest := by
  unfold digits afterDigits
  rw [List.takeWhile_append_of_pos all, List.dropWhile_append_of_pos all]
  cases rest with
  | nil => simp
  | cons c rest => simp [stop c rfl]

theorem digits_split (text : List Char) :
    (∀ c ∈ digits text, c.isDigit = true) ∧ text = digits text ++ afterDigits text ∧
      NoDigit (afterDigits text) := by
  refine ⟨List.all_eq_true.mp List.all_takeWhile, List.takeWhile_append_dropWhile.symm, ?_⟩
  intro c first
  have head := List.head?_dropWhile_not Char.isDigit text
  rw [← afterDigits, Option.mem_def.mp first] at head
  exact head

theorem someDigits_eq_ok_iff {text found rest : List Char} :
    someDigits text = .ok (found, rest) ↔
      Digits found ∧ text = found ++ rest ∧ NoDigit rest := by
  unfold someDigits
  constructor
  · intro h
    obtain ⟨all, split, stop⟩ := digits_split text
    split at h
    · cases h
    · cases h
    · rename_i some _
      cases h
      exact ⟨⟨fun none => some none, all⟩, split, stop⟩
  · rintro ⟨⟨ne_nil, all⟩, rfl, stop⟩
    obtain ⟨taken, left⟩ := digits_append all stop
    rw [taken, left]
    cases found with
    | nil => exact absurd rfl ne_nil
    | cons c found => rfl

/-! ## The parts of a numeral -/

theorem answer_whole_cons (c : Char) (text : List Char) :
    answer (whole (c :: text)) =
      if c = '0' then
        match digits text with
        | [] => .ok (['0'], text)
        | _ => stopAt .invalidNumber text
      else if c.isDigit then .ok (c :: digits text, afterDigits text)
      else stopAt .invalidNumber (c :: text) := by
  simp only [whole]
  split
  · cases digits text <;> rfl
  · split <;> rfl

theorem answer_whole_eq_ok_iff {text found rest : List Char} :
    answer (whole text) = .ok (found, rest) ↔
      Whole found ∧ text = found ++ rest ∧ NoDigit rest := by
  constructor
  · intro h
    cases text with
    | nil => cases h
    | cons c text =>
      obtain ⟨all, parts, stop⟩ := digits_split text
      rw [answer_whole_cons] at h
      split at h
      · subst c
        split at h
        · rename_i none
          cases h
          rw [none, List.nil_append] at parts
          exact ⟨.zero, rfl, parts ▸ stop⟩
        · cases h
      · rename_i no_zero
        split at h
        · rename_i digit
          cases h
          exact ⟨.digits digit no_zero all, congrArg (c :: ·) parts, stop⟩
        · cases h
  · rintro ⟨isWhole, rfl, stop⟩
    cases isWhole with
    | zero =>
      have taken : digits ([] ++ rest) = [] := (digits_append (by simp) stop).1
      rw [List.nil_append] at taken
      rw [List.singleton_append, answer_whole_cons, if_pos rfl, taken]
    | digits digit no_zero all =>
      obtain ⟨taken, left⟩ := digits_append all stop
      rw [List.cons_append, answer_whole_cons, if_neg no_zero, if_pos digit, taken, left]

theorem fraction_sound {text rest : List Char} {found : Option (List Char)}
    (h : fraction text = .ok (found, rest)) :
    ∃ front, Fraction front found ∧ text = front ++ rest := by
  unfold fraction at h
  split at h
  · obtain ⟨⟨digits, rest'⟩, taken, h⟩ := bind_eq_ok h
    cases h
    obtain ⟨isDigits, rfl, -⟩ := someDigits_eq_ok_iff.mp taken
    exact ⟨_, .point isDigits, rfl⟩
  · cases h
    exact ⟨_, .absent, rfl⟩

theorem fraction_complete {front rest : List Char} {found : Option (List Char)}
    (h : Fraction front found) (stop : NoDigit rest) (no_point : rest.head? ≠ some '.') :
    fraction (front ++ rest) = .ok (found, rest) := by
  cases h with
  | absent =>
    rw [List.nil_append]
    unfold fraction
    split
    · exact absurd rfl no_point
    · rfl
  | point isDigits =>
    have taken := someDigits_eq_ok_iff.mpr ⟨isDigits, rfl, stop⟩
    simp only [List.cons_append, fraction, taken]
    rfl

theorem exponentSign_sound (text : List Char) :
    ∃ front, ExponentSign front (exponentSign text).1 ∧ text = front ++ (exponentSign text).2 := by
  unfold exponentSign
  split
  · exact ⟨_, .plus, rfl⟩
  · exact ⟨_, .minus, rfl⟩
  · exact ⟨_, .absent, rfl⟩

theorem exponentSign_complete {front digits : List Char} {negative : Bool}
    (h : ExponentSign front negative) (isDigits : Digits digits) (rest : List Char) :
    exponentSign (front ++ (digits ++ rest)) = (negative, digits ++ rest) := by
  cases h with
  | plus => rfl
  | minus => rfl
  | absent =>
    obtain ⟨c, digits, rfl⟩ := List.exists_cons_of_ne_nil isDigits.ne_nil
    have digit := isDigits.all c (List.mem_cons_self ..)
    unfold exponentSign
    split
    · rename_i same
      cases same
      cases digit
    · rename_i same
      cases same
      cases digit
    · rfl

theorem exponent_cons {c : Char} (letter : c = 'e' ∨ c = 'E') (text : List Char) :
    exponent (c :: text) =
      (someDigits (exponentSign text).2).map fun (found, rest) =>
        (some ⟨(exponentSign text).1, found⟩, rest) := by
  simp only [exponent, if_pos letter]
  rfl

theorem exponent_sound {text rest : List Char} {found : Option NumeralExponent}
    (h : exponent text = .ok (found, rest)) :
    ∃ front, Exponent front found ∧ text = front ++ rest := by
  cases text with
  | nil =>
    cases h
    exact ⟨_, .absent, rfl⟩
  | cons c text =>
    by_cases letter : c = 'e' ∨ c = 'E'
    · rw [exponent_cons letter] at h
      obtain ⟨⟨digits, rest'⟩, taken, h⟩ := map_eq_ok h
      obtain ⟨rfl, rfl⟩ := Prod.mk.inj h
      obtain ⟨isDigits, parts, -⟩ := someDigits_eq_ok_iff.mp taken
      obtain ⟨sign, signed, parts'⟩ := exponentSign_sound text
      refine ⟨_, .letter letter signed isDigits, ?_⟩
      rw [List.append_assoc, List.cons_append, ← parts, ← parts']
    · simp only [exponent, if_neg letter] at h
      cases h
      exact ⟨_, .absent, rfl⟩

theorem exponent_complete {front rest : List Char} {found : Option NumeralExponent}
    (h : Exponent front found) (unextended : Unextended rest) :
    exponent (front ++ rest) = .ok (found, rest) := by
  cases h with
  | absent =>
    rw [List.nil_append]
    unfold exponent
    split
    · rename_i c rest
      obtain ⟨-, -, no_letter, no_capital⟩ := unextended c rfl
      rw [if_neg (by simp [no_letter, no_capital])]
    · rfl
  | letter letter signed isDigits =>
    have stop : NoDigit rest := fun c first => (unextended c first).1
    have taken := someDigits_eq_ok_iff.mpr ⟨isDigits, rfl, stop⟩
    rw [List.append_assoc, List.cons_append, exponent_cons letter,
      exponentSign_complete signed isDigits, taken]
    rfl

theorem noDigit_exponent {front rest : List Char} {found : Option NumeralExponent}
    (h : Exponent front found) (stop : NoDigit rest) : NoDigit (front ++ rest) := by
  cases h with
  | absent => exact stop
  | letter letter =>
    intro c first
    obtain rfl := Option.some.inj first
    rcases letter with rfl | rfl <;> rfl

theorem no_point_exponent {front rest : List Char} {found : Option NumeralExponent}
    (h : Exponent front found) (no_point : rest.head? ≠ some '.') :
    (front ++ rest).head? ≠ some '.' := by
  cases h with
  | absent => exact no_point
  | letter letter => rcases letter with rfl | rfl <;> simp

theorem noDigit_fraction {front rest : List Char} {found : Option (List Char)}
    (h : Fraction front found) (stop : NoDigit rest) : NoDigit (front ++ rest) := by
  cases h with
  | absent => exact stop
  | point =>
    intro c first
    obtain rfl := Option.some.inj first
    rfl

theorem sign_sound (text : List Char) :
    ∃ front, Sign front (sign text).1 ∧ text = front ++ (sign text).2 := by
  unfold sign
  split
  · exact ⟨_, .minus, rfl⟩
  · exact ⟨_, .absent, rfl⟩

theorem sign_complete {front whole : List Char} {negative : Bool} (h : Sign front negative)
    (isWhole : Whole whole) (rest : List Char) :
    sign (front ++ (whole ++ rest)) = (negative, whole ++ rest) := by
  cases h with
  | minus => rfl
  | absent =>
    cases isWhole with
    | zero => rfl
    | digits digit =>
      unfold sign
      split
      · rename_i same
        cases same
        cases digit
      · rfl

/-! ## Numerals -/

theorem answer_numeral (text : List Char) :
    answer (numeral text) =
      (answer (whole (sign text).2)).bind fun (w, rest) =>
        (fraction rest).bind fun (f, rest) =>
          (exponent rest).map fun (e, rest) => (⟨(sign text).1, w, f, e⟩, rest) := by
  unfold numeral
  cases whole (sign text).2 with
  | error stop => rfl
  | ok w =>
    have taken : answer (.ok w) = .ok (w.value, w.rest) := rfl
    rw [taken]
    dsimp only [Except.bind]
    split
    · rename_i failed
      rw [failed]
      rfl
    · rename_i f afterFraction fractional
      simp only [fractional]
      split
      · rename_i failed
        rw [failed]
        rfl
      · rename_i e rest scaled
        simp only [scaled]
        rfl

theorem numeral_sound {text rest : List Char} {n : ContractFixture.Numeral}
    (h : answer (numeral text) = .ok (n, rest)) :
    ∃ front, Grammar.Numeral front n ∧ text = front ++ rest := by
  rw [answer_numeral] at h
  obtain ⟨⟨w, afterWhole⟩, taken, h⟩ := bind_eq_ok h
  obtain ⟨⟨f, afterFraction⟩, fractional, h⟩ := bind_eq_ok h
  obtain ⟨⟨e, afterExponent⟩, scaled, h⟩ := map_eq_ok h
  cases h
  obtain ⟨front, signed, parts⟩ := sign_sound text
  obtain ⟨isWhole, parts', -⟩ := answer_whole_eq_ok_iff.mp taken
  obtain ⟨front', isFraction, rfl⟩ := fraction_sound fractional
  obtain ⟨front'', isExponent, rfl⟩ := exponent_sound scaled
  refine ⟨_, .mk signed isWhole isFraction isExponent, ?_⟩
  rw [parts'] at parts
  simpa using parts

theorem numeral_complete {front rest : List Char} {n : ContractFixture.Numeral}
    (h : Grammar.Numeral front n) (unextended : Unextended rest) :
    answer (numeral (front ++ rest)) = .ok (n, rest) := by
  obtain @⟨s, w, f, e, negative, found, scale, signed, isWhole, isFraction, isExponent⟩ := h
  have stop : NoDigit rest := fun c first => (unextended c first).1
  have no_point : rest.head? ≠ some '.' := fun point => (unextended '.' point).2.1 rfl
  -- Each part is followed by what cannot be mistaken for its continuation.
  have afterFraction := noDigit_exponent isExponent stop
  have afterWhole := noDigit_fraction isFraction afterFraction
  have signs := sign_complete signed isWhole (f ++ (e ++ rest))
  have taken : answer (whole (sign (s ++ (w ++ (f ++ (e ++ rest))))).2) =
      .ok (w, f ++ (e ++ rest)) :=
    answer_whole_eq_ok_iff.mpr ⟨isWhole, congrArg Prod.snd signs, afterWhole⟩
  have parts : s ++ w ++ f ++ e ++ rest = s ++ (w ++ (f ++ (e ++ rest))) := by simp
  rw [parts, answer_numeral, taken, signs]
  simp only [Except.bind, exponent_complete isExponent unextended,
    fraction_complete isFraction afterFraction (no_point_exponent isExponent no_point)]
  rfl

theorem answer_number (text : List Char) :
    answer (number text) =
      (answer (numeral text)).bind fun (n, rest) =>
        match n.number? with
        | some x => .ok (.num x, rest)
        | none => stopBefore .numberOutOfRange (n.unread ++ rest) := by
  unfold number
  cases numeral text with
  | error stop => rfl
  | ok n =>
    dsimp only [answer, Except.map, Except.bind]
    cases n.value.number? <;> rfl

theorem number_sound {text rest : List Char} {v : Json}
    (h : answer (number text) = .ok (v, rest)) :
    ∃ front n x, Grammar.Numeral front n ∧ n.Denotes x ∧ v = .num x ∧ text = front ++ rest := by
  rw [answer_number] at h
  obtain ⟨⟨n, rest'⟩, taken, converted⟩ := bind_eq_ok h
  obtain ⟨front, written, parts⟩ := numeral_sound taken
  dsimp only at converted
  split at converted
  · rename_i x denoted
    cases converted
    exact ⟨front, n, x, written, Numeral.number?_eq_some_iff.mp denoted, rfl, parts⟩
  · cases converted

theorem number_complete {front rest : List Char} {n : ContractFixture.Numeral} {x : Number}
    (written : Grammar.Numeral front n) (denoted : n.Denotes x) (unextended : Unextended rest) :
    answer (number (front ++ rest)) = .ok (.num x, rest) := by
  rw [answer_number, numeral_complete written unextended]
  simp only [Except.bind, Numeral.number?_eq_some_iff.mpr denoted]

end Json.Reader

end ContractFixture
