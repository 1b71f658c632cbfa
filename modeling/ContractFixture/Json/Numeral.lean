import ContractFixture.Json.Basic
import ContractFixture.Decimal.Nearest
import ContractFixture.Width

/-! # Numerals -/

namespace ContractFixture

structure NumeralExponent where
  negative : Bool
  digits : List Char

structure Numeral where
  negative : Bool
  whole : List Char
  fraction : Option (List Char)
  exponent : Option NumeralExponent

namespace Numeral

/-! ## Doubles -/

/-- Takes up digits while the significand stays below `2 ^ 64`. -/
def takeUp (significand : Nat) : List Char → Nat × List Char
  | [] => (significand, [])
  | d :: rest =>
    let next := 10 * significand + (d.toNat - '0'.toNat)
    if next < UInt64.size then takeUp next rest else (significand, d :: rest)

def powerOfTen (n : Nat) : Float := Float.ofScientific 1 false n

/-- `x * 10 ^ exponent`, or `none` if that is infinite. -/
def scale (x : Float) (exponent : Int) : Option Float :=
  if exponent.natAbs ≤ 308 then
    if 0 ≤ exponent then
      let product := x * powerOfTen exponent.natAbs
      if product.isInf then none else some product
    else some (x / powerOfTen exponent.natAbs)
  else if x == 0 then some x
  else if 0 ≤ exponent then none
  else scale (x / powerOfTen 308) (exponent + 308)
termination_by exponent.natAbs

def writtenExponent (n : Numeral) : Int :=
  match n.exponent with
  | none => 0
  | some e => if e.negative then -Decimal.valueOfDigits e.digits else Decimal.valueOfDigits e.digits

/-- Whole digits that do not fit the significand count as powers of ten, further digits of the
fraction are dropped. -/
def float? (n : Numeral) : Option Float :=
  let (whole, excess) := takeUp 0 n.whole
  let (significand, exponent) : Nat × Int :=
    match n.fraction with
    | none => (whole, excess.length)
    | some digits =>
      let (all, dropped) := takeUp whole digits
      (all, excess.length - (digits.length - dropped.length : Nat))
  (scale significand.toUInt64.toFloat (exponent + n.writtenExponent)).map fun x =>
    if n.negative then -x else x

/-! ## Numbers -/

/-- The integer that the numeral denotes, if it fits a word. Zero with a sign is a double. -/
def int? (n : Numeral) : Option Int :=
  match n.fraction, n.exponent with
  | none, none =>
    let magnitude := Decimal.valueOfDigits n.whole
    if n.negative then
      if 0 < magnitude ∧ IntegerWidth.i64.contains (-magnitude) = true then some (-magnitude)
      else none
    else if IntegerWidth.u64.contains magnitude then some magnitude else none
  | _, _ => none

def number? (n : Numeral) : Option Number :=
  match n.int? with
  | some value => some (.int value)
  | none => n.float?.bind fun x => if h : x.isFinite = true then some (.float x h) else none

/-! ## Exponents beyond all bounds -/

def digitsPast (limit value : Nat) : List Char → List Char
  | [] => []
  | d :: rest =>
    let next := 10 * value + (d.toNat - '0'.toNat)
    if limit < next then rest else digitsPast limit next rest

/-- A numeral that is too large is given up at the digit with which its exponent passes
`2 ^ 31 - 1`. -/
def unread (n : Numeral) : List Char :=
  match n.exponent with
  | some ⟨false, digits⟩ => digitsPast 0x7FFFFFFF 0 digits
  | _ => []

end Numeral

end ContractFixture
