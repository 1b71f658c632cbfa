import ContractFixture.Proofs.Text.Bytes
import Mathlib.Tactic.SplitIfs

/-! # The order of texts in bytes -/

namespace ContractFixture.Text

theorem toNat_lt_of_char (c : Char) : c.val.toNat < 0x110000 := by
  have valid := c.valid
  rw [UInt32.isValidChar, Nat.isValidChar] at valid
  omega

theorem cons_byte_lt_iff {m n : Nat} (small : m < 256) (small' : n < 256)
    {rest rest' : List UInt8} :
    UInt8.ofNat m :: rest < UInt8.ofNat n :: rest' ↔ m < n ∨ m = n ∧ rest < rest' := by
  rw [List.cons_lt_cons_iff, UInt8.lt_iff_toNat_lt, ← UInt8.toNat_inj, UInt8.toNat_ofNat',
    UInt8.toNat_ofNat', Nat.mod_eq_of_lt small, Nat.mod_eq_of_lt small']

theorem utf8EncodeChar_lt {c d : Char} (h : c < d) (rest rest' : List UInt8) :
    String.utf8EncodeChar c ++ rest < String.utf8EncodeChar d ++ rest' := by
  have less : c.val.toNat < d.val.toNat := h
  have most := toNat_lt_of_char d
  simp only [String.utf8EncodeChar]
  generalize c.val.toNat = m at *
  generalize d.val.toNat = n at *
  have top : m / 262144 % 8 = m / 262144 := Nat.mod_eq_of_lt (by omega)
  have top' : n / 262144 % 8 = n / 262144 := Nat.mod_eq_of_lt (by omega)
  -- One case for each pair of lengths; the first byte of four is not cut.
  split_ifs
  all_goals
    simp (disch := omega) only [List.cons_append, List.nil_append, cons_byte_lt_iff, top, top']
    omega

theorem bytes_lt {text other : List Char} (h : text < other) : bytes text < bytes other := by
  induction text generalizing other with
  | nil =>
    cases other with
    | nil => exact absurd h (List.not_lt_nil [])
    | cons d other =>
      have some : String.utf8EncodeChar d ≠ [] := String.utf8EncodeChar_ne_nil
      obtain ⟨b, others, first⟩ := List.exists_cons_of_ne_nil some
      rw [bytes_cons, first]
      exact List.nil_lt_cons b _
  | cons c text ih =>
    cases other with
    | nil => exact absurd h (List.not_lt_nil _)
    | cons d other =>
      rw [bytes_cons, bytes_cons]
      rcases List.cons_lt_cons_iff.mp h with less | ⟨rfl, less⟩
      · exact utf8EncodeChar_lt less _ _
      · exact List.append_left_lt (ih less)

end ContractFixture.Text
