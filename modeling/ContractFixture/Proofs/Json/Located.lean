import ContractFixture.Proofs.Json.Content
import ContractFixture.Proofs.Json.Settled.Values
import Mathlib.Data.List.Induction

/-! # Where a text is refused -/

namespace ContractFixture

/-! ## Places by bytes -/

namespace Place

def after (bytes : List UInt8) : Place :=
  ⟨bytes.count 0x0A + 1, (bytes.reverse.takeWhile (· ≠ 0x0A)).length⟩

/-- Of the offsets within these bytes, this is the one at the place. -/
structure IsAt (place : Place) (bytes : List UInt8) (offset : Nat) : Prop where
  within : offset ≤ bytes.length
  only : ∀ n ≤ bytes.length, after (bytes.take n) = place ↔ n = offset

def step (place : Place) (byte : UInt8) : Place :=
  if byte = 0x0A then ⟨place.line + 1, 0⟩ else ⟨place.line, place.column + 1⟩

theorem after_append_singleton (bytes : List UInt8) (byte : UInt8) :
    after (bytes ++ [byte]) = (after bytes).step byte := by
  unfold after step
  rw [List.count_append, List.reverse_append, List.reverse_singleton, List.singleton_append]
  by_cases feed : byte = 0x0A
  · subst byte
    simp
  · simp [feed]

theorem foldl_step (bytes : List UInt8) : bytes.foldl step ⟨1, 0⟩ = after bytes := by
  induction bytes using List.reverseRecOn with
  | nil => rfl
  | append_singleton bytes byte ih =>
    rw [List.foldl_append, ih, after_append_singleton]
    rfl

theorem foldl_step_of_not_mem {bytes : List UInt8} (no_feed : 0x0A ∉ bytes) (place : Place) :
    bytes.foldl step place = ⟨place.line, place.column + bytes.length⟩ := by
  induction bytes generalizing place with
  | nil => rfl
  | cons byte bytes ih =>
    obtain ⟨other, others⟩ := not_or.mp (mt List.mem_cons.mpr no_feed)
    rw [List.foldl_cons, ih others, step, if_neg (Ne.symm other), List.length_cons]
    simp only [mk.injEq, true_and]
    omega

theorem not_mem_utf8EncodeChar {c : Char} (h : c ≠ '\n') : 0x0A ∉ String.utf8EncodeChar c := by
  intro feed
  by_cases ascii : c.toNat < 128
  · rw [Text.utf8EncodeChar_of_lt ascii, List.mem_singleton] at feed
    have code := congrArg UInt8.toNat feed
    rw [UInt8.toNat_ofNat', Nat.mod_eq_of_lt (by omega)] at code
    exact h (Char.toNat_inj.mp code.symm)
  · have large := Text.le_of_mem_utf8EncodeChar (Nat.le_of_not_lt ascii) feed
    exact absurd large (by decide)

theorem advance_eq (place : Place) (n : Nat) (text : List Char) :
    place.advance n text = ((Text.bytes text).take n).foldl step place := by
  induction text generalizing place n with
  | nil => rw [advance, Text.bytes, List.flatMap_nil, List.take_nil, List.foldl_nil]
  | cons c text ih =>
    rw [advance, Text.bytes_cons]
    by_cases zero : n = 0
    · rw [if_pos zero, zero, List.take_zero, List.foldl_nil]
    · rw [if_neg zero, List.take_append, List.foldl_append, String.length_utf8EncodeChar]
      by_cases feed : c = '\n'
      · subst c
        have one : (String.utf8EncodeChar '\n').take n = [0x0A] :=
          List.take_of_length_le (Nat.pos_of_ne_zero zero)
        rw [if_pos rfl, ih, one]
        rfl
      · have no_feed : 0x0A ∉ (String.utf8EncodeChar c).take n :=
          mt List.mem_of_mem_take (not_mem_utf8EncodeChar feed)
        rw [if_neg feed, foldl_step_of_not_mem no_feed, List.length_take,
          String.length_utf8EncodeChar]
        split
        · rename_i whole
          rw [ih, Nat.min_eq_right whole]
        · rename_i cut
          rw [Nat.min_eq_left (by omega), Nat.sub_eq_zero_of_le (by omega)]
          rfl

theorem atByte_eq (text : List Char) (n : Nat) :
    atByte text n = after ((Text.bytes text).take n) := by
  rw [atByte, advance_eq, foldl_step]

/-! ## One offset for a place -/

def Before (place other : Place) : Prop :=
  place.line < other.line ∨ place.line = other.line ∧ place.column < other.column

theorem before_step (place : Place) (byte : UInt8) : place.Before (place.step byte) := by
  unfold Before step
  split
  · exact Or.inl (Nat.lt_succ_self _)
  · exact Or.inr ⟨rfl, Nat.lt_succ_self _⟩

theorem Before.trans {a b c : Place} (h : a.Before b) (h' : b.Before c) : a.Before c := by
  unfold Before at *
  omega

theorem before_foldl (place : Place) (byte : UInt8) (bytes : List UInt8) :
    place.Before ((byte :: bytes).foldl step place) := by
  induction bytes generalizing place byte with
  | nil => exact before_step place byte
  | cons next bytes ih => exact (before_step place byte).trans (ih (place.step byte) next)

theorem before_after_take {bytes : List UInt8} {m n : Nat} (less : m < n)
    (within : n ≤ bytes.length) : (after (bytes.take m)).Before (after (bytes.take n)) := by
  have parts : bytes.take n = bytes.take m ++ (bytes.take n).drop m := by
    have split := List.take_append_drop m (bytes.take n)
    rwa [List.take_take, Nat.min_eq_left (Nat.le_of_lt less), eq_comm] at split
  cases rest : (bytes.take n).drop m with
  | nil =>
    have lengths := congrArg List.length rest
    simp at lengths
    omega
  | cons byte others =>
    rw [← foldl_step, ← foldl_step, parts, rest, List.foldl_append]
    exact before_foldl ..

theorem isAt_after {bytes : List UInt8} {offset : Nat} (within : offset ≤ bytes.length) :
    (after (bytes.take offset)).IsAt bytes offset where
  within := within
  only n le := by
    constructor
    · intro same
      rcases Nat.lt_trichotomy n offset with less | equal | more
      · have before := before_after_take less within
        unfold Before at before
        rw [same] at before
        omega
      · exact equal
      · have before := before_after_take more le
        unfold Before at before
        rw [same] at before
        omega
    · rintro rfl
      rfl

end Place

namespace Json

open Reader
open Text (bytes Agree exists_append_of_agree byteSize_le_of_agree length_bytes byteSize_append)

/-! ## Refused texts -/

theorem error_eq (front : List Char) (stop : Stop) (within : stop.seen ≤ byteSize stop.rest) :
    stop.error (front ++ stop.rest) = ⟨stop.fault,
      Place.after ((bytes (front ++ stop.rest)).take (byteSize front + stop.seen))⟩ := by
  have offset : min (byteSize (front ++ stop.rest))
      (byteSize (front ++ stop.rest) - byteSize stop.rest + stop.seen) =
        byteSize front + stop.seen := by
    rw [byteSize_append]
    omega
  rw [Stop.error, offset, Place.atByte_eq]

theorem error_of_end {stop : Stop} (rest : stop.rest = []) (text : List Char) :
    stop.error text = ⟨stop.fault, Place.after (bytes text)⟩ := by
  have offset : min (byteSize text) (byteSize text - byteSize stop.rest + stop.seen) =
      byteSize text := by
    rw [rest, byteSize]
    omega
  rw [Stop.error, offset, Place.atByte_eq, ← length_bytes, List.take_length]

theorem parse_eq_error_iff {text : String} {e : ReadError} :
    parse text = .error e ↔
      ∃ stop, readChars maxDepth text.toList = .error stop ∧ stop.error text.toList = e := by
  rw [parse, readRaw]
  cases readChars maxDepth text.toList with
  | ok v => simp [Except.mapError, Except.map]
  | error stop => simp [Except.mapError, Except.map]

theorem parse_of_agree {front : List Char} {stop : Stop} {other : String}
    (within : stop.seen ≤ byteSize stop.rest)
    (settled : ∀ rest, Agree stop.seen stop.rest rest →
      documentAnswer maxDepth (front ++ rest) = .error ⟨stop.fault, rest, stop.seen⟩)
    (agree : Agree (byteSize front + stop.seen) (front ++ stop.rest) other.toList) :
    parse other = .error (stop.error (front ++ stop.rest)) := by
  obtain ⟨rest, parts, same⟩ := exists_append_of_agree agree
  have error := error_eq front stop within
  have error' := error_eq front ⟨stop.fault, rest, stop.seen⟩ (byteSize_le_of_agree same within)
  have refused := settled rest same
  rw [← parts] at refused error'
  rw [Agree] at agree
  refine parse_eq_error_iff.mpr ⟨_, readChars_eq_error_iff.mpr refused, ?_⟩
  rw [error, error', agree]

/-- A text that ends too early is refused at its end. Every other refusal, but that of a number that
is too large, is settled by the bytes before its place. -/
theorem refusal_settled_before_place {text : String} {e : ReadError}
    (refused : parse text = .error e) :
    (e.fault.isEnd = true → e.place.IsAt (bytes text.toList) (bytes text.toList).length) ∧
    (e.fault.isEnd = false → e.fault ≠ .numberOutOfRange →
      ∃ offset, 1 ≤ offset ∧ e.place.IsAt (bytes text.toList) offset ∧
        ∀ other : String, (bytes other.toList).take offset = (bytes text.toList).take offset →
          parse other = .error e) := by
  obtain ⟨stop, stopped, rfl⟩ := parse_eq_error_iff.mp refused
  have answered := readChars_eq_error_iff.mp stopped
  have settled := (settled_documentAnswer maxDepth text.toList).of_refused answered
  have fault : (stop.error text.toList).fault = stop.fault := rfl
  rw [fault]
  constructor
  · intro atEnd
    rcases settled with ⟨-, rest⟩ | tooLarge | ⟨inside, -⟩
    · have place := Place.isAt_after (Nat.le_refl (bytes text.toList).length)
      rw [List.take_length] at place
      rw [error_of_end rest]
      exact place
    · rw [tooLarge] at atEnd
      cases atEnd
    · exact absurd (inside.symm.trans atEnd) (by decide)
  · intro inside denoted
    rcases settled with ⟨atEnd, -⟩ | tooLarge | ⟨-, front, parts, looked, within, settled⟩
    · exact absurd (inside.symm.trans atEnd) (by decide)
    · exact absurd tooLarge denoted
    · rw [parts]
      refine ⟨byteSize front + stop.seen, looked, ?_, fun other agree => ?_⟩
      · rw [error_eq front stop within]
        apply Place.isAt_after
        rw [length_bytes, byteSize_append]
        omega
      · exact parse_of_agree within settled agree.symm

set_option maxRecDepth 4000 in
theorem refusal_inside_character :
    parse "[\n 1.€" = .error ⟨.invalidNumber, ⟨2, 4⟩⟩ ∧
    ∃ offset, 1 ≤ offset ∧ (⟨2, 4⟩ : Place).IsAt (bytes "[\n 1.€".toList) offset ∧
      ∀ other : String,
        (bytes other.toList).take offset = (bytes "[\n 1.€".toList).take offset →
          parse other = .error ⟨.invalidNumber, ⟨2, 4⟩⟩ := by
  have refused : parse "[\n 1.€" = .error ⟨.invalidNumber, ⟨2, 4⟩⟩ := by
    rfl
  have denoted : ReadFault.invalidNumber ≠ .numberOutOfRange := by
    decide
  exact ⟨refused, (refusal_settled_before_place refused).2 rfl denoted⟩

end Json

end ContractFixture
