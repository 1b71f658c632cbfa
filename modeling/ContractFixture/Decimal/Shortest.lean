/-!
# The shortest decimal of a double

It is the point of the rounding interval on the coarsest decimal grid, and of two such points the
one nearer to the double. All tests are made on whole numbers.
-/

namespace ContractFixture

/-- The magnitude `coefficient * 10 ^ exponent`. -/
structure Decimal where
  coefficient : Nat
  exponent : Int
deriving DecidableEq, Repr

namespace Decimal

/-- The magnitude `mantissa * 2 ^ exponent` of a finite double. -/
structure Binary where
  mantissa : Nat
  exponent : Int
  atPowerOfTwo : Bool

def Binary.ofBits (bits : UInt64) : Binary :=
  let fraction := bits.toNat % Nat.pow 2 52
  let biased : Nat := bits.toNat / Nat.pow 2 52 % Nat.pow 2 11
  if biased = 0 then
    { mantissa := fraction, exponent := -1074, atPowerOfTwo := false }
  else
    { mantissa := Nat.pow 2 52 + fraction, exponent := (biased : Int) - 1075,
      atPowerOfTwo := fraction = 0 ∧ 1 < biased }

/-- The interval of reals that round to a double, in quarters of its last place. -/
structure Interval where
  low : Nat
  middle : Nat
  high : Nat
  closed : Bool

def Binary.interval (b : Binary) : Interval where
  low := 4 * b.mantissa - (if b.atPowerOfTwo then 1 else 2)
  middle := 4 * b.mantissa
  high := 4 * b.mantissa + 2
  closed := b.mantissa % 2 = 0

/-- A quotient of whole numbers that counts grid steps per quarter place: `per / step`. -/
structure Ratio where
  per : Nat
  step : Nat

def Binary.ratio (b : Binary) (grid : Int) : Ratio where
  per := Nat.pow 2 (b.exponent - 2).toNat * Nat.pow 10 (-grid).toNat
  step := Nat.pow 10 grid.toNat * Nat.pow 2 (2 - b.exponent).toNat

def Interval.holds (i : Interval) (r : Ratio) (n : Nat) : Bool :=
  let x := n * r.step
  if i.closed then i.low * r.per ≤ x && x ≤ i.high * r.per
  else i.low * r.per < x && x < i.high * r.per

/-- Of the two grid points around the double the one that lies in the interval, of two the nearer,
and at the same distance the even one. -/
def Interval.point? (i : Interval) (r : Ratio) : Option Nat :=
  let exact := i.middle * r.per
  let below := exact / r.step
  let above := below + 1
  match i.holds r below, i.holds r above with
  | false, false => none
  | true, false => some below
  | false, true => some above
  | true, true =>
    let down := exact - below * r.step
    let up := above * r.step - exact
    if down < up then some below
    else if up < down then some above
    else if below % 2 = 0 then some below else some above

/-- No double lies beyond this grid, and every double lies on the finest of the grids below it. -/
def coarsestGrid : Nat := 309

/-- The shortest decimal that reads back as the double with these bits. -/
def shortest (bits : UInt64) : Decimal :=
  let b := Binary.ofBits bits
  let onGrid (k : Nat) : Option Decimal :=
    let grid := (coarsestGrid : Int) - k
    (b.interval.point? (b.ratio grid)).map fun n => { coefficient := n, exponent := grid }
  if b.mantissa = 0 then { coefficient := 0, exponent := 0 }
  else ((List.range (coarsestGrid + 325)).findSome? onGrid).getD { coefficient := 0, exponent := 0 }

end Decimal

end ContractFixture
