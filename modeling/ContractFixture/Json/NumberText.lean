import ContractFixture.Json.Basic
import ContractFixture.Decimal.Shortest

/-! # The text of a number -/

namespace ContractFixture

/-- Where the text of a double changes its notation, by the power of ten of its first digit. -/
structure FloatLayout where
  leastPositional : Int
  greatestPositional : Int

/-- Documents write doubles positionally from `0.00001` up to sixteen whole digits. -/
def Json.floatLayout : FloatLayout := ⟨-5, 15⟩

def zeros (n : Nat) : List Char := List.replicate n '0'

def FloatLayout.positional (digits : List Char) (exponent : Int) : List Char :=
  let whole := (digits.length + exponent).toNat
  if 0 ≤ exponent then digits ++ zeros exponent.toNat ++ ['.', '0']
  else if 0 < digits.length + exponent then digits.take whole ++ '.' :: digits.drop whole
  else '0' :: '.' :: zeros (-(digits.length + exponent)).toNat ++ digits

def FloatLayout.scientific (digits : List Char) (leading : Int) : List Char :=
  let fraction := match digits.drop 1 with
    | [] => []
    | rest => '.' :: rest
  let sign := if leading < 0 then '-' else '+'
  digits.take 1 ++ fraction ++ 'e' :: sign :: Nat.toDigits 10 leading.natAbs

def FloatLayout.write (layout : FloatLayout) (d : Decimal) : List Char :=
  let digits := Nat.toDigits 10 d.coefficient
  let leading := digits.length + d.exponent - 1
  if layout.leastPositional ≤ leading ∧ leading ≤ layout.greatestPositional then
    FloatLayout.positional digits d.exponent
  else FloatLayout.scientific digits leading

def floatText (x : Float) : List Char :=
  let magnitude := Json.floatLayout.write (Decimal.shortest x.toBits)
  if Nat.pow 2 63 ≤ x.toBits.toNat then '-' :: magnitude else magnitude

def intText (n : Int) : List Char :=
  if n < 0 then '-' :: Nat.toDigits 10 n.natAbs else Nat.toDigits 10 n.natAbs

def Number.chars : Number → List Char
  | .int n => intText n
  | .float x _ => floatText x

end ContractFixture
