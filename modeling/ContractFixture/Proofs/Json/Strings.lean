import ContractFixture.Proofs.Json.Reading

/-! # Strings -/

namespace ContractFixture.Json.Reader

open Grammar
open Text (Taken)

/-! ## Code units -/

theorem lt_of_hexDigit {c : Char} {value : Nat} (h : HexDigit c value) : value < 16 := by
  rcases h with h | h
  · exact (List.getElem?_eq_some_iff.mp h).1
  · exact (List.getElem?_eq_some_iff.mp h).1

theorem hexDigitValue?_of_hexDigit {c : Char} {value : Nat} (h : HexDigit c value) :
    Text.hexDigitValue? c = some value := by
  have digits : hexDigits.map Text.hexDigitValue? = (List.range 16).map some := by decide
  have capitals : hexCapitals.map Text.hexDigitValue? = (List.range 16).map some := by decide
  have small := lt_of_hexDigit h
  rcases h with h | h
  · have same := congrArg (·[value]?) digits
    simpa [h, small] using same
  · have same := congrArg (·[value]?) capitals
    simpa [h, small] using same

theorem hexDigit_of_hexDigitValue? {c : Char} {value : Nat}
    (h : Text.hexDigitValue? c = some value) : HexDigit c value := by
  -- Only the first 128 characters have to be looked through.
  have ascii : ∀ n < 128, ∀ value ∈ Text.hexDigitValue? (Char.ofNat n),
      HexDigit (Char.ofNat n) value := by
    unfold HexDigit
    decide
  have small : c.toNat < 128 := by
    refine Nat.lt_of_not_le fun large => ?_
    unfold Text.hexDigitValue? at h
    simp only [Char.le_def, UInt32.le_iff_toNat_le] at h
    change (if 48 ≤ c.toNat ∧ c.toNat ≤ 57 then _ else if 97 ≤ c.toNat ∧ c.toNat ≤ 102 then _
      else if 65 ≤ c.toNat ∧ c.toNat ≤ 70 then _ else none) = some value at h
    rw [if_neg (by omega), if_neg (by omega), if_neg (by omega)] at h
    cases h
  have self : Char.ofNat c.toNat = c := Char.ofNat_toNat c
  rw [← self] at h ⊢
  exact ascii _ small _ h

theorem hexValue?_eq_some_iff {a b c d : Char} {unit : Nat} :
    Text.hexValue? [a, b, c, d] = some unit ↔ CodeUnit [a, b, c, d] unit := by
  simp only [Text.hexValue?, List.foldlM_cons, List.foldlM_nil, bind, Option.bind_eq_some_iff,
    Option.map_eq_some_iff, pure, Option.some.injEq]
  constructor
  · rintro ⟨_, ⟨i, first, rfl⟩, _, ⟨j, second, rfl⟩, _, ⟨k, third, rfl⟩, _, ⟨l, fourth, rfl⟩, rfl⟩
    have value : 16 * (16 * (16 * (16 * 0 + i) + j) + k) + l =
        ((i * 16 + j) * 16 + k) * 16 + l := by omega
    rw [value]
    exact .mk (hexDigit_of_hexDigitValue? first) (hexDigit_of_hexDigitValue? second)
      (hexDigit_of_hexDigitValue? third) (hexDigit_of_hexDigitValue? fourth)
  · intro h
    cases h with
    | mk first second third fourth =>
      refine ⟨_, ⟨_, hexDigitValue?_of_hexDigit first, rfl⟩,
        _, ⟨_, hexDigitValue?_of_hexDigit second, rfl⟩,
        _, ⟨_, hexDigitValue?_of_hexDigit third, rfl⟩,
        _, ⟨_, hexDigitValue?_of_hexDigit fourth, rfl⟩, ?_⟩
      omega

theorem lt_of_codeUnit {text : List Char} {unit : Nat} (h : CodeUnit text unit) :
    unit < 0x10000 := by
  cases h with
  | mk first second third fourth =>
    have := lt_of_hexDigit first
    have := lt_of_hexDigit second
    have := lt_of_hexDigit third
    have := lt_of_hexDigit fourth
    omega

theorem noCodeUnit_ne_ok {α : Type} {text : List Char} (x : α) :
    noCodeUnit text ≠ (.ok x : Except Stop α) := by
  unfold noCodeUnit
  split <;> nofun

theorem answer_codeUnit_eq_ok_iff {text rest : List Char} {unit : Nat} :
    answer (codeUnit text) = .ok (unit, rest) ↔
      ∃ front, CodeUnit front unit ∧ text = front ++ rest := by
  constructor
  · intro h
    obtain ⟨taken, read, same⟩ := map_eq_ok h
    cases same
    unfold codeUnit at read
    split at read
    · rename_i a b c d rest'
      split at read
      · rename_i value found
        cases read
        exact ⟨_, hexValue?_eq_some_iff.mp found, rfl⟩
      · exact absurd read (noCodeUnit_ne_ok _)
    · exact absurd read (noCodeUnit_ne_ok _)
  · rintro ⟨front, isUnit, rfl⟩
    obtain ⟨first, second, third, fourth⟩ := isUnit
    have found := hexValue?_eq_some_iff.mpr (.mk first second third fourth)
    simp only [List.cons_append, List.nil_append, codeUnit]
    rw [found]
    rfl

/-! ## Escapes -/

theorem toNat_ofNat {n : Nat} (h : n.isValidChar) : (Char.ofNat n).toNat = n := by
  rw [Char.ofNat, dif_pos h]
  rfl

theorem simpleEscape?_eq_some_iff {l c : Char} :
    simpleEscape? l = some c ↔ (l, c) ∈ escapeLetters := by
  unfold simpleEscape? escapeLetters
  split <;> simp_all [eq_comm]

theorem isTrailing_iff {unit : Nat} : isTrailing unit = true ↔ 0xDC00 ≤ unit ∧ unit < 0xE000 := by
  simp [isTrailing]

theorem isLeading_iff {unit : Nat} : isLeading unit = true ↔ 0xD800 ≤ unit ∧ unit < 0xDC00 := by
  simp [isLeading]

theorem isValidChar_iff {unit : Nat} (bound : unit < 0x10000) :
    unit.isValidChar ↔ ¬ isTrailing unit = true ∧ ¬ isLeading unit = true := by
  rw [isTrailing_iff, isLeading_iff]
  unfold Nat.isValidChar
  omega

theorem answer_trailingUnit_pair (leading : Nat) (text : List Char) :
    answer (trailingUnit leading ('\\' :: 'u' :: text)) =
      (answer (codeUnit text)).bind fun (unit, rest) =>
        if isTrailing unit then .ok (ofSurrogates leading unit, rest)
        else stopBefore .loneSurrogate rest := by
  simp only [trailingUnit]
  cases codeUnit text with
  | error stop => rfl
  | ok unit =>
    by_cases trailing : isTrailing unit.value = true
    · simp only [answer, Except.map, Except.bind, if_pos trailing, Taken.after, Taken.map]
    · simp only [answer, Except.map, Except.bind, if_neg trailing, stopBefore]

theorem answer_trailingUnit_eq_ok_iff {leading : Nat} {text rest : List Char} {c : Char} :
    answer (trailingUnit leading text) = .ok (c, rest) ↔
      ∃ low trailing, CodeUnit low trailing ∧ isTrailing trailing = true ∧
        c = ofSurrogates leading trailing ∧ text = '\\' :: 'u' :: low ++ rest := by
  constructor
  · intro h
    obtain ⟨after, rfl⟩ : ∃ after, text = '\\' :: 'u' :: after := by
      unfold trailingUnit at h
      split at h
      · cases h
      · cases h
      · exact ⟨_, rfl⟩
      · cases h
      · cases h
    rw [answer_trailingUnit_pair] at h
    obtain ⟨⟨unit, rest'⟩, read, next⟩ := bind_eq_ok h
    obtain ⟨low, isUnit, rfl⟩ := answer_codeUnit_eq_ok_iff.mp read
    dsimp only at next
    split at next
    · rename_i trailing
      obtain ⟨same, rfl⟩ := Prod.mk.inj (Except.ok.inj next)
      exact ⟨low, unit, isUnit, trailing, same.symm, rfl⟩
    · cases next
  · rintro ⟨low, trailing, isUnit, inRange, same, rfl⟩
    have read : answer (codeUnit (low ++ rest)) = .ok (trailing, rest) :=
      answer_codeUnit_eq_ok_iff.mpr ⟨low, isUnit, rfl⟩
    rw [List.cons_append, List.cons_append, answer_trailingUnit_pair, read, same]
    exact if_pos inRange

theorem answer_unicode (text : List Char) :
    answer (unicode text) =
      (answer (codeUnit text)).bind fun (unit, rest) =>
        if isTrailing unit then stopBefore .loneSurrogate rest
        else if isLeading unit then answer (trailingUnit unit rest)
        else .ok (Char.ofNat unit, rest) := by
  unfold unicode
  cases codeUnit text with
  | error stop => rfl
  | ok unit =>
    dsimp only [answer, Except.map, Except.bind]
    by_cases trailing : isTrailing unit.value = true
    · rw [if_pos trailing, if_pos trailing]
      rfl
    · rw [if_neg trailing, if_neg trailing]
      by_cases leading : isLeading unit.value = true
      · rw [if_pos leading, if_pos leading]
        cases trailingUnit unit.value unit.rest <;> rfl
      · rw [if_neg leading, if_neg leading]
        rfl

theorem escape_unicode_iff {text : List Char} {c : Char} :
    Escape ('u' :: text) c ↔
      CodeUnit text c.toNat ∨
        ∃ high low m n, CodeUnit high m ∧ isLeading m = true ∧ CodeUnit low n ∧
          isTrailing n = true ∧ c = ofSurrogates m n ∧ text = high ++ '\\' :: 'u' :: low := by
  have point : ∀ {m n : Nat}, isLeading m = true → isTrailing n = true →
      (c = ofSurrogates m n ↔ c.toNat = 0x10000 + (m - 0xD800) * 0x400 + (n - 0xDC00)) := by
    intro m n leading trailing
    rw [isLeading_iff] at leading
    rw [isTrailing_iff] at trailing
    have valid : (0x10000 + (m - 0xD800) * 0x400 + (n - 0xDC00)).isValidChar :=
      Or.inr ⟨by omega, by omega⟩
    rw [← Char.toNat_inj, ofSurrogates, toNat_ofNat valid]
  constructor
  · intro h
    cases h with
    | letter member => simp [escapeLetters] at member
    | unit isUnit => exact Or.inl isUnit
    | pair first leading second trailing same =>
      have leading := isLeading_iff.mpr leading
      have trailing := isTrailing_iff.mpr trailing
      exact Or.inr ⟨_, _, _, _, first, leading, second, trailing,
        (point leading trailing).mpr same, rfl⟩
  · rintro (isUnit | ⟨high, low, m, n, first, leading, second, trailing, same, rfl⟩)
    · exact .unit isUnit
    · exact .pair first (isLeading_iff.mp leading) second (isTrailing_iff.mp trailing)
        ((point leading trailing).mp same)

theorem answer_unicode_eq_ok_iff {text rest : List Char} {c : Char} :
    answer (unicode text) = .ok (c, rest) ↔
      ∃ front, Escape ('u' :: front) c ∧ text = front ++ rest := by
  rw [answer_unicode]
  constructor
  · intro h
    obtain ⟨⟨unit, rest'⟩, read, next⟩ := bind_eq_ok h
    obtain ⟨high, isUnit, rfl⟩ := answer_codeUnit_eq_ok_iff.mp read
    dsimp only at next
    split at next
    · cases next
    · rename_i no_trailing
      split at next
      · rename_i leading
        obtain ⟨low, n, isUnit', trailing, same, rfl⟩ := answer_trailingUnit_eq_ok_iff.mp next
        refine ⟨high ++ '\\' :: 'u' :: low, escape_unicode_iff.mpr (Or.inr ?_), by simp⟩
        exact ⟨high, low, unit, n, isUnit, leading, isUnit', trailing, same, rfl⟩
      · rename_i no_leading
        cases next
        have valid : unit.isValidChar :=
          (isValidChar_iff (lt_of_codeUnit isUnit)).mpr ⟨no_trailing, no_leading⟩
        have isUnit : CodeUnit high (Char.ofNat unit).toNat := by rwa [toNat_ofNat valid]
        exact ⟨high, escape_unicode_iff.mpr (Or.inl isUnit), rfl⟩
  · rintro ⟨front, escape, rfl⟩
    rcases escape_unicode_iff.mp escape with
      isUnit | ⟨high, low, m, n, isUnit, leading, isUnit', trailing, same, rfl⟩
    · have read : answer (codeUnit (front ++ rest)) = .ok (c.toNat, rest) :=
        answer_codeUnit_eq_ok_iff.mpr ⟨front, isUnit, rfl⟩
      obtain ⟨no_trailing, no_leading⟩ := (isValidChar_iff (lt_of_codeUnit isUnit)).mp c.valid
      rw [read]
      dsimp only [Except.bind]
      rw [if_neg no_trailing, if_neg no_leading, Char.ofNat_toNat]
    · have read : answer (codeUnit (high ++ '\\' :: 'u' :: low ++ rest)) =
          .ok (m, '\\' :: 'u' :: low ++ rest) :=
        answer_codeUnit_eq_ok_iff.mpr ⟨high, isUnit, by simp⟩
      have no_trailing : ¬ isTrailing m = true := by
        rw [isLeading_iff] at leading
        rw [isTrailing_iff]
        omega
      rw [read]
      dsimp only [Except.bind]
      rw [if_neg no_trailing, if_pos leading]
      exact answer_trailingUnit_eq_ok_iff.mpr ⟨low, n, isUnit', trailing, same, rfl⟩

theorem answer_escaped_cons (l : Char) (text : List Char) :
    answer (escaped (l :: text)) =
      match simpleEscape? l with
      | some value => .ok (value, text)
      | none => if l = 'u' then answer (unicode text) else stopAt .invalidEscape (l :: text) := by
  simp only [escaped]
  cases simpleEscape? l with
  | some value => rfl
  | none =>
    dsimp only
    split
    · cases unicode text <;> rfl
    · rfl

theorem answer_escaped_eq_ok_iff {text rest : List Char} {c : Char} :
    answer (escaped text) = .ok (c, rest) ↔ ∃ front, Escape front c ∧ text = front ++ rest := by
  cases text with
  | nil =>
    constructor
    · intro h
      cases h
    · rintro ⟨front, escape, parts⟩
      obtain ⟨rfl, rfl⟩ := List.append_eq_nil_iff.mp parts.symm
      cases escape
  | cons l text =>
    rw [answer_escaped_cons]
    constructor
    · intro h
      split at h
      · rename_i value simple
        cases h
        exact ⟨[l], .letter (simpleEscape?_eq_some_iff.mp simple), rfl⟩
      · split at h
        · rename_i unit
          subst l
          obtain ⟨front, escape, rfl⟩ := answer_unicode_eq_ok_iff.mp h
          exact ⟨'u' :: front, escape, rfl⟩
        · cases h
    · rintro ⟨front, escape, parts⟩
      -- The letter `u` stands for nothing alone, so the two kinds of escapes exclude each other.
      obtain ⟨front, rfl⟩ | ⟨member, rfl⟩ :
          (∃ units, front = 'u' :: units) ∨ ((l, c) ∈ escapeLetters ∧ front = [l]) := by
        cases escape with
        | letter member =>
          obtain ⟨rfl, -⟩ := List.cons.inj parts
          exact Or.inr ⟨member, rfl⟩
        | unit => exact Or.inl ⟨_, rfl⟩
        | pair => exact Or.inl ⟨_, rfl⟩
      · obtain ⟨rfl, rfl⟩ := List.cons.inj parts
        exact answer_unicode_eq_ok_iff.mpr ⟨front, escape, rfl⟩
      · obtain ⟨-, rfl⟩ := List.cons.inj parts
        rw [simpleEscape?_eq_some_iff.mpr member]

/-! ## Strings -/

theorem answer_stringBody_cons (c : Char) (text : List Char) :
    answer (stringBody (c :: text)) =
      if c = '"' then .ok ([], text)
      else if c = '\\' then
        (answer (escaped text)).bind fun (x, rest) =>
          (answer (stringBody rest)).map fun (xs, rest) => (x :: xs, rest)
      else if c.toNat < 0x20 then stopAt .controlCharacter (c :: text)
      else (answer (stringBody text)).map fun (xs, rest) => (c :: xs, rest) := by
  rw [stringBody]
  split
  · rfl
  · split
    · cases escaped text with
      | error stop => rfl
      | ok x =>
        dsimp only [answer, Except.map, Except.bind]
        cases stringBody x.rest <;> rfl
    · split
      · rfl
      · dsimp only [answer, Except.map, Except.bind]
        cases stringBody text <;> rfl

theorem stringBody_sound {text rest cs : List Char}
    (h : answer (stringBody text) = .ok (cs, rest)) :
    ∃ front, Characters front cs ∧ text = front ++ '"' :: rest := by
  -- An escape takes several characters, so the induction is on the length and not on the text.
  induction length : text.length using Nat.strongRecOn generalizing text cs with
  | _ size ih =>
  cases text with
  | nil =>
    rw [stringBody] at h
    cases h
  | cons c text =>
    rw [answer_stringBody_cons] at h
    split at h
    · subst c
      cases h
      exact ⟨[], .nil, rfl⟩
    · rename_i no_quote
      split at h
      · subst c
        obtain ⟨⟨x, rest'⟩, first, h⟩ := bind_eq_ok h
        obtain ⟨⟨xs, rest''⟩, others, h⟩ := map_eq_ok h
        cases h
        obtain ⟨front, escape, rfl⟩ := answer_escaped_eq_ok_iff.mp first
        have shorter : ('\\' :: (front ++ rest')).length = size := length
        obtain ⟨front', isRest, rfl⟩ := ih rest'.length (by simp at shorter; omega) others rfl
        exact ⟨_, .cons (.escaped escape) isRest, by simp⟩
      · rename_i no_backslash
        split at h
        · cases h
        · rename_i no_control
          obtain ⟨⟨xs, rest'⟩, others, h⟩ := map_eq_ok h
          cases h
          obtain ⟨front, isRest, rfl⟩ := ih text.length (by simp [← length]) others rfl
          exact ⟨_, .cons (.raw (Nat.le_of_not_lt no_control) no_quote no_backslash) isRest, rfl⟩

theorem stringBody_complete {front cs : List Char} (h : Characters front cs) (rest : List Char) :
    answer (stringBody (front ++ '"' :: rest)) = .ok (cs, rest) := by
  induction h with
  | nil =>
    rw [List.nil_append, answer_stringBody_cons]
    rfl
  | @cons text others c cs first _ ih =>
    cases first with
    | raw no_control no_quote no_backslash =>
      rw [List.append_assoc, List.singleton_append, answer_stringBody_cons, if_neg no_quote,
        if_neg no_backslash, if_neg (Nat.not_lt.mpr no_control), ih]
      rfl
    | @escaped escape _ isEscape =>
      have read : answer (escaped (escape ++ (others ++ '"' :: rest))) =
          .ok (c, others ++ '"' :: rest) :=
        answer_escaped_eq_ok_iff.mpr ⟨escape, isEscape, rfl⟩
      rw [List.append_assoc, List.cons_append, answer_stringBody_cons, if_neg (by decide),
        if_pos rfl, read]
      simp only [Except.bind, ih]
      rfl

theorem answer_stringBody_eq_ok_iff {text rest cs : List Char} :
    answer (stringBody text) = .ok (cs, rest) ↔
      ∃ front, Characters front cs ∧ text = front ++ '"' :: rest := by
  constructor
  · exact stringBody_sound
  · rintro ⟨front, isBody, rfl⟩
    exact stringBody_complete isBody rest

end ContractFixture.Json.Reader
