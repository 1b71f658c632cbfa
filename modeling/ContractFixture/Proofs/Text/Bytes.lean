import ContractFixture.Json.Reader
import Mathlib.Data.List.TakeDrop

/-! # The bytes of a text -/

namespace ContractFixture.Text

open Json.Reader (byteSize)

def bytes (text : List Char) : List UInt8 := text.flatMap String.utf8EncodeChar

theorem bytes_cons (c : Char) (text : List Char) :
    bytes (c :: text) = String.utf8EncodeChar c ++ bytes text :=
  List.flatMap_cons

theorem bytes_append (front text : List Char) : bytes (front ++ text) = bytes front ++ bytes text :=
  List.flatMap_append

theorem length_bytes (text : List Char) : (bytes text).length = byteSize text := by
  induction text with
  | nil => rfl
  | cons c text ih =>
    rw [bytes_cons, List.length_append, String.length_utf8EncodeChar, ih, byteSize]

theorem byteSize_append (front text : List Char) :
    byteSize (front ++ text) = byteSize front + byteSize text := by
  rw [← length_bytes, bytes_append, List.length_append, length_bytes, length_bytes]

theorem byteSize_eq_zero_iff {text : List Char} : byteSize text = 0 ↔ text = [] := by
  cases text with
  | nil => exact ⟨fun _ => rfl, fun _ => rfl⟩
  | cons c text =>
    have positive := c.utf8Size_pos
    rw [byteSize]
    constructor
    · intro none
      omega
    · nofun

/-! ## Bytes of one character -/

theorem forall_mem_lt {text : List Char} (ascii : (text.all fun c => c.toNat < 128) = true) :
    ∀ c ∈ text, c.toNat < 128 :=
  fun c member => of_decide_eq_true (List.all_eq_true.mp ascii c member)

theorem utf8EncodeChar_of_lt {c : Char} (ascii : c.toNat < 128) :
    String.utf8EncodeChar c = [UInt8.ofNat c.toNat] := by
  have small : c.val.toNat ≤ 127 := Nat.le_of_lt_succ ascii
  rw [String.utf8EncodeChar.eq_1, if_pos small]
  rfl

theorem utf8Size_of_lt {c : Char} (ascii : c.toNat < 128) : c.utf8Size = 1 := by
  rw [← String.length_utf8EncodeChar, utf8EncodeChar_of_lt ascii]
  rfl

theorem le_of_mem_utf8EncodeChar {c : Char} (large : 128 ≤ c.toNat) {b : UInt8}
    (h : b ∈ String.utf8EncodeChar c) : 128 ≤ b.toNat := by
  have several : ¬ c.val.toNat ≤ 127 := Nat.not_le_of_lt large
  rw [String.utf8EncodeChar.eq_1, if_neg several] at h
  have bytes : ∀ n : Nat, 128 ≤ n → n < 256 → 128 ≤ (UInt8.ofNat n).toNat := by
    intro n least most
    rw [UInt8.toNat_ofNat']
    omega
  split at h
  · simp only [List.mem_cons, List.not_mem_nil, or_false] at h
    rcases h with rfl | rfl <;> exact bytes _ (by omega) (by omega)
  · split at h
    · simp only [List.mem_cons, List.not_mem_nil, or_false] at h
      rcases h with rfl | rfl | rfl <;> exact bytes _ (by omega) (by omega)
    · simp only [List.mem_cons, List.not_mem_nil, or_false] at h
      rcases h with rfl | rfl | rfl | rfl <;> exact bytes _ (by omega) (by omega)

theorem toNat_first_byte {c : Char} {b : UInt8} {others : List UInt8}
    (h : String.utf8EncodeChar c = b :: others) :
    c.toNat < 128 ∧ b.toNat = c.toNat ∨ 128 ≤ c.toNat ∧ 128 ≤ b.toNat := by
  by_cases ascii : c.toNat < 128
  · rw [utf8EncodeChar_of_lt ascii] at h
    obtain ⟨rfl, -⟩ := List.cons.inj h
    rw [UInt8.toNat_ofNat']
    omega
  · have large := Nat.le_of_not_lt ascii
    have first : b ∈ String.utf8EncodeChar c := h ▸ List.mem_cons_self ..
    exact Or.inr ⟨large, le_of_mem_utf8EncodeChar large first⟩

/-! ## Texts that agree -/

/-- The texts have the same first `n` bytes, or are the same and shorter than that. -/
def Agree (n : Nat) (text other : List Char) : Prop := (bytes text).take n = (bytes other).take n

variable {n : Nat} {front text other : List Char}

theorem Agree.refl (n : Nat) (text : List Char) : Agree n text text := rfl

theorem Agree.symm (h : Agree n text other) : Agree n other text := Eq.symm h

theorem Agree.mono (h : Agree n text other) {m : Nat} (le : m ≤ n) : Agree m text other := by
  have same := congrArg (List.take m) h
  rwa [List.take_take, List.take_take, Nat.min_eq_left le] at same

theorem agree_append_iff :
    Agree (byteSize front + n) (front ++ text) (front ++ other) ↔ Agree n text other := by
  rw [Agree, bytes_append, bytes_append, ← length_bytes, List.take_length_add_append,
    List.take_length_add_append, List.append_cancel_left_eq]
  rfl

theorem exists_append_of_agree (h : Agree (byteSize front + n) (front ++ text) other) :
    ∃ rest, other = front ++ rest ∧ Agree n text rest := by
  have encoded : front.utf8Encode ++ ((bytes other).drop (byteSize front)).toByteArray =
      other.utf8Encode := by
    have start := h.mono (Nat.le_add_right (byteSize front) n)
    rw [Agree, bytes_append, ← length_bytes, List.take_left] at start
    have parts := List.take_append_drop (bytes front).length (bytes other)
    rw [← start] at parts
    rw [← length_bytes, List.utf8Encode, List.utf8Encode, ← List.toByteArray_append]
    exact congrArg List.toByteArray parts
  obtain ⟨rest, rfl⟩ := List.isPrefix_of_utf8Encode_append_eq_utf8Encode _ encoded
  exact ⟨rest, rfl, agree_append_iff.mp h⟩

theorem byteSize_le_of_agree (h : Agree n text other) (le : n ≤ byteSize text) :
    n ≤ byteSize other := by
  have lengths := congrArg List.length h
  rw [List.length_take, List.length_take, length_bytes, length_bytes] at lengths
  omega

/-! ## The first byte -/

/-- Characters that may have the same first byte. -/
def Alike (c c' : Char) : Prop := c' = c ∨ 128 ≤ c.toNat ∧ 128 ≤ c'.toNat

theorem Alike.eq_of_lt {c c' : Char} (h : Alike c c') (ascii : c.toNat < 128) : c' = c := by
  rcases h with same | ⟨large, -⟩
  · exact same
  · omega

theorem Alike.ne {c c' x : Char} (h : Alike c c') (ascii : x.toNat < 128) (ne : c ≠ x) :
    c' ≠ x := by
  rcases h with rfl | ⟨-, large⟩
  · exact ne
  · rintro rfl
    omega

theorem Alike.apply_eq {c c' : Char} (h : Alike c c') {p : Char → Bool}
    (ascii : ∀ c, p c = true → c.toNat < 128) : p c' = p c := by
  rcases h with rfl | ⟨large, large'⟩
  · rfl
  · have no : ∀ c, 128 ≤ c.toNat → p c = false := by
      intro c large
      rw [← Bool.not_eq_true]
      intro holds
      have small := ascii c holds
      omega
    rw [no c large, no c' large']

theorem eq_nil_of_agree (positive : 0 < n) (h : Agree n [] other) : other = [] := by
  rw [← byteSize_eq_zero_iff]
  have lengths := congrArg List.length h
  rw [List.length_take, List.length_take, length_bytes, length_bytes, byteSize] at lengths
  omega

theorem exists_cons_of_agree {c : Char} (h : Agree 1 (c :: text) other) :
    ∃ c' rest, other = c' :: rest ∧ Alike c c' := by
  cases other with
  | nil => cases eq_nil_of_agree Nat.one_pos h.symm
  | cons c' rest =>
    refine ⟨c', rest, rfl, ?_⟩
    obtain ⟨b, bs, first⟩ := List.exists_cons_of_ne_nil (String.utf8EncodeChar_ne_nil (c := c))
    obtain ⟨b', bs', first'⟩ := List.exists_cons_of_ne_nil (String.utf8EncodeChar_ne_nil (c := c'))
    have same : b = b' := by
      rw [Agree, bytes_cons, bytes_cons, first, first'] at h
      exact (List.cons.inj h).1
    have known := toNat_first_byte first
    have known' := toNat_first_byte first'
    rw [← same] at known'
    rw [Alike, ← Char.toNat_inj]
    omega

theorem head?_ne_of_agree {x : Char} (ascii : x.toNat < 128) (h : Agree 1 text other)
    (ne : text.head? ≠ some x) : other.head? ≠ some x := by
  cases text with
  | nil => rwa [eq_nil_of_agree Nat.one_pos h]
  | cons c text =>
    obtain ⟨c', rest, rfl, alike⟩ := exists_cons_of_agree h
    rw [List.head?_cons, Ne, Option.some.injEq] at ne ⊢
    exact alike.ne ascii ne

end ContractFixture.Text
