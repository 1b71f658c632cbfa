/-! # The double nearest to a decimal -/

namespace ContractFixture.Decimal

def valueOfDigits (digits : List Char) : Nat :=
  digits.foldl (fun n c => 10 * n + (c.toNat - '0'.toNat)) 0

/-- The double nearest to `coefficient * 10 ^ exponent`, a tie going to the even one. What lies
beyond all doubles is infinite. -/
def nearest (coefficient : Nat) (exponent : Int) : Float :=
  let magnitude := (Nat.toDigits 10 coefficient).length + exponent
  if coefficient = 0 ∨ magnitude < -330 then 0
  else if 310 < magnitude then 1 / 0
  else if exponent < 0 then Float.ofScientific coefficient true exponent.natAbs
  else Float.ofScientific coefficient false exponent.natAbs

end ContractFixture.Decimal
