import Mathlib.Data.List.Induction
import ContractFixture.Decimal.Literal

/-! # The integers that literals denote -/

namespace ContractFixture.Decimal

/-! ## Digits -/

def decimalDigits : List Char := ['0', '1', '2', '3', '4', '5', '6', '7', '8', '9']

/-- The text is one or more digits, and they denote the number. -/
inductive Digits : List Char → Nat → Prop
  | one {c : Char} {d : Nat} (digit : decimalDigits[d]? = some c) : Digits [c] d
  | snoc {text : List Char} {c : Char} {n d : Nat} (front : Digits text n)
      (digit : decimalDigits[d]? = some c) : Digits (text ++ [c]) (10 * n + d)

theorem digit_iff {c : Char} {d : Nat} :
    decimalDigits[d]? = some c ↔ c.isDigit = true ∧ c.toNat - '0'.toNat = d := by
  constructor
  · intro h
    have each : ∀ (d : Nat) (_ : d < 10),
        decimalDigits[d].isDigit = true ∧ decimalDigits[d].toNat - '0'.toNat = d := by decide
    obtain ⟨inside, rfl⟩ := List.getElem?_eq_some_iff.mp h
    exact each d inside
  · rintro ⟨isDigit, rfl⟩
    have each : ∀ d < 10, decimalDigits[d]? = some (Char.ofNat ('0'.toNat + d)) := by decide
    obtain ⟨low, high⟩ := Char.isDigit_iff_toNat.mp isDigit
    have inside : c.toNat - '0'.toNat < 10 := by
      change c.toNat - 48 < 10
      change c.toNat ≤ 57 at high
      omega
    rw [each _ inside, Nat.add_sub_cancel' low, Char.ofNat_toNat]

theorem valueOfDigits_snoc (text : List Char) (c : Char) :
    valueOfDigits (text ++ [c]) = 10 * valueOfDigits text + (c.toNat - '0'.toNat) := by
  simp [valueOfDigits, List.foldl_append]

theorem isDigits_snoc (text : List Char) (c : Char) :
    isDigits (text ++ [c]) = true ↔ (text = [] ∨ isDigits text = true) ∧ c.isDigit = true := by
  cases text <;> simp [isDigits, and_assoc]

theorem digits_iff {text : List Char} {n : Nat} :
    Digits text n ↔ isDigits text = true ∧ valueOfDigits text = n := by
  constructor
  · intro h
    induction h with
    | one digit =>
      obtain ⟨isDigit, rfl⟩ := digit_iff.mp digit
      exact ⟨by simp [isDigits, isDigit], by simp [valueOfDigits]⟩
    | snoc _ digit ih =>
      obtain ⟨isDigit, rfl⟩ := digit_iff.mp digit
      obtain ⟨areDigits, rfl⟩ := ih
      exact ⟨(isDigits_snoc ..).mpr ⟨Or.inr areDigits, isDigit⟩, valueOfDigits_snoc ..⟩
  · rintro ⟨areDigits, rfl⟩
    -- The last digit counts once, so the induction is from the end of the text.
    induction text using List.reverseRecOn with
    | nil => cases areDigits
    | append_singleton text c ih =>
      obtain ⟨front, isDigit⟩ := (isDigits_snoc ..).mp areDigits
      have digit := digit_iff.mpr ⟨isDigit, rfl⟩
      rcases front with rfl | front
      · simpa [valueOfDigits] using Digits.one digit
      · rw [valueOfDigits_snoc]
        exact .snoc (ih front) digit

theorem Digits.all {text : List Char} {n : Nat} (h : Digits text n) :
    ∀ c ∈ text, c.isDigit = true := by
  have areDigits := (digits_iff.mp h).1
  simp only [isDigits, Bool.and_eq_true, List.all_eq_true] at areDigits
  exact areDigits.2

theorem Digits.ne_nil {text : List Char} {n : Nat} (h : Digits text n) : text ≠ [] := by
  cases h <;> simp

/-! ## Signs -/

inductive Signed : List Char → Int → Prop
  | bare {text : List Char} {n : Nat} (h : Digits text n) : Signed text n
  | plus {text : List Char} {n : Nat} (h : Digits text n) : Signed ('+' :: text) n
  | minus {text : List Char} {n : Nat} (h : Digits text n) : Signed ('-' :: text) (-n)

inductive Unsigned : List Char → Nat → Prop
  | bare {text : List Char} {n : Nat} (h : Digits text n) : Unsigned text n
  | plus {text : List Char} {n : Nat} (h : Digits text n) : Unsigned ('+' :: text) n

theorem isDigits_sign {sign : Char} (text : List Char) (h : sign.isDigit = false) :
    isDigits (sign :: text) = false := by
  simp [isDigits, h]

theorem splitSign_of_isDigits {text : List Char} (h : isDigits text = true) :
    splitSign text = (false, text) := by
  unfold splitSign
  split
  · rw [isDigits_sign _ (by decide)] at h
    cases h
  · rw [isDigits_sign _ (by decide)] at h
    cases h
  · rfl

theorem integer?_eq_some_iff {text : List Char} {n : Int} :
    integer? text = some n ↔ Signed text n := by
  constructor
  · intro h
    unfold integer? splitSign at h
    split at h
    rename_i negative digits split
    split at h
    · rename_i areDigits
      have denoted := digits_iff.mpr ⟨areDigits, rfl⟩
      cases h
      split at split <;> cases split
      · exact .minus denoted
      · exact .plus denoted
      · exact .bare denoted
    · cases h
  · intro h
    cases h with
    | bare digits =>
      obtain ⟨areDigits, rfl⟩ := digits_iff.mp digits
      simp [integer?, splitSign_of_isDigits areDigits, areDigits]
    | plus digits | minus digits =>
      obtain ⟨areDigits, rfl⟩ := digits_iff.mp digits
      simp [integer?, splitSign, areDigits]

theorem natural?_eq_some_iff {text : List Char} {n : Nat} :
    natural? text = some n ↔ Unsigned text n := by
  constructor
  · intro h
    unfold natural? at h
    split at h <;> split at h <;> cases h <;> rename_i areDigits
    · exact .plus (digits_iff.mpr ⟨areDigits, rfl⟩)
    · exact .bare (digits_iff.mpr ⟨areDigits, rfl⟩)
  · intro h
    cases h with
    | bare digits =>
      obtain ⟨areDigits, rfl⟩ := digits_iff.mp digits
      unfold natural?
      split
      · rw [isDigits_sign _ (by decide)] at areDigits
        cases areDigits
      · rw [if_pos areDigits]
    | plus digits =>
      obtain ⟨areDigits, rfl⟩ := digits_iff.mp digits
      exact if_pos areDigits

end ContractFixture.Decimal
