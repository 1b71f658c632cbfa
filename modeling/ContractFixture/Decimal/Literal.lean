import ContractFixture.Decimal.Nearest

/-! # Number literals -/

namespace ContractFixture.Decimal

def isDigits (text : List Char) : Bool := !text.isEmpty && text.all Char.isDigit

def splitSign (text : List Char) : Bool × List Char :=
  match text with
  | '-' :: rest => (true, rest)
  | '+' :: rest => (false, rest)
  | _ => (false, text)

/-! ## Integers -/

def integer? (text : List Char) : Option Int :=
  let (negative, digits) := splitSign text
  if isDigits digits then
    let magnitude : Int := valueOfDigits digits
    some (if negative then -magnitude else magnitude)
  else none

def natural? (text : List Char) : Option Nat :=
  match text with
  | '+' :: digits => if isDigits digits then some (valueOfDigits digits) else none
  | digits => if isDigits digits then some (valueOfDigits digits) else none

/-! ## Doubles -/

def lowerCase (text : List Char) : String := String.ofList (text.map Char.toLower)

def namedDouble? (text : List Char) : Option Float :=
  match lowerCase text with
  | "inf" => some (1 / 0)
  | "infinity" => some (1 / 0)
  | "nan" => some (0 / 0)
  | _ => none

def powerOfTen? (text : List Char) : Option Int :=
  match text with
  | [] => some 0
  | 'e' :: rest => integer? rest
  | 'E' :: rest => integer? rest
  | _ => none

/-- A double without its sign. There are digits before or after the point. -/
def magnitude? (text : List Char) : Option Float := do
  let whole := text.takeWhile Char.isDigit
  let rest := text.dropWhile Char.isDigit
  let (fraction, rest) := match rest with
    | '.' :: after => (after.takeWhile Char.isDigit, after.dropWhile Char.isDigit)
    | _ => ([], rest)
  if whole.isEmpty && fraction.isEmpty then none
  else
    let exponent ← powerOfTen? rest
    return nearest (valueOfDigits (whole ++ fraction)) (exponent - fraction.length)

def double? (text : List Char) : Option Float :=
  let (negative, rest) := splitSign text
  let magnitude := (magnitude? rest).or (namedDouble? rest)
  magnitude.map fun x => if negative then -x else x

end ContractFixture.Decimal
