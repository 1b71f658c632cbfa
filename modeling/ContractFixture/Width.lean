/-! # Widths of numbers -/

namespace ContractFixture

/-! ## Integers -/

/-- The machine type of an integer; the two without a number are as wide as an address, 64 bits. -/
inductive IntegerWidth where
  | i8
  | i16
  | i32
  | i64
  | isize
  | u8
  | u16
  | u32
  | u64
  | usize
deriving DecidableEq, Repr

namespace IntegerWidth

instance : Inhabited IntegerWidth := ⟨i64⟩

def choices : List (String × IntegerWidth) :=
  [("i8", i8), ("i16", i16), ("i32", i32), ("i64", i64), ("isize", isize),
    ("u8", u8), ("u16", u16), ("u32", u32), ("u64", u64), ("usize", usize)]

def name : IntegerWidth → String
  | i8 => "i8"
  | i16 => "i16"
  | i32 => "i32"
  | i64 => "i64"
  | isize => "isize"
  | u8 => "u8"
  | u16 => "u16"
  | u32 => "u32"
  | u64 => "u64"
  | usize => "usize"

def isSigned : IntegerWidth → Bool
  | i8 | i16 | i32 | i64 | isize => true
  | u8 | u16 | u32 | u64 | usize => false

def bits : IntegerWidth → Nat
  | i8 | u8 => 8
  | i16 | u16 => 16
  | i32 | u32 => 32
  | i64 | u64 | isize | usize => 64

def low (width : IntegerWidth) : Int :=
  if width.isSigned then -(Nat.pow 2 (width.bits - 1) : Nat) else 0

def high (width : IntegerWidth) : Int :=
  (Nat.pow 2 (if width.isSigned then width.bits - 1 else width.bits) : Nat) - 1

def contains (width : IntegerWidth) (n : Int) : Bool := width.low ≤ n && n ≤ width.high

theorem contains_iff {width : IntegerWidth} {n : Int} :
    width.contains n = true ↔ width.low ≤ n ∧ n ≤ width.high := by
  simp [contains]

theorem contains_i64_iff {n : Int} :
    i64.contains n = true ↔ -0x8000000000000000 ≤ n ∧ n ≤ 0x7FFFFFFFFFFFFFFF :=
  contains_iff

theorem contains_u64_iff {n : Int} :
    u64.contains n = true ↔ 0 ≤ n ∧ n ≤ 0xFFFFFFFFFFFFFFFF :=
  contains_iff

theorem word_of_contains {width : IntegerWidth} {n : Int} (h : width.contains n = true) :
    i64.contains n = true ∨ u64.contains n = true := by
  rw [contains_i64_iff, contains_u64_iff]
  rw [contains_iff] at h
  cases width <;> simp [low, high, isSigned, bits] at h <;> omega

end IntegerWidth

/-! ## Floating point numbers -/

inductive FloatWidth where
  | f32
  | f64
deriving DecidableEq, Repr

namespace FloatWidth

instance : Inhabited FloatWidth := ⟨f64⟩

def choices : List (String × FloatWidth) := [("f32", f32), ("f64", f64)]

def name : FloatWidth → String
  | f32 => "f32"
  | f64 => "f64"

/-- The greatest finite number of single precision, `(2 ^ 24 - 1) * 2 ^ 104`. -/
def greatestSingle : Float := Float.ofBits 0x47EFFFFFE0000000

/-- The double lies within the finite numbers of the width. -/
def contains (width : FloatWidth) (x : Float) : Bool :=
  match width with
  | f32 => x.abs ≤ greatestSingle
  | f64 => x.isFinite

end FloatWidth

end ContractFixture
