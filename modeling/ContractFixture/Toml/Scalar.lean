import ContractFixture.Decimal.Literal
import ContractFixture.Text.HexDigit
import ContractFixture.Toml.Item
import ContractFixture.Width

/-! # Values without quotes or brackets -/

namespace ContractFixture.Toml

def isScalarChar (c : Char) : Bool :=
  c.isAlphanum || c = '+' || c = '-' || c = '.' || c = '_' || c = ':'

/-! ## Digits -/

def isHexDigit (c : Char) : Bool := (Text.hexDigitValue? c).isSome

def isOctalDigit (c : Char) : Bool := '0' ≤ c && c ≤ '7'

def isBinaryDigit (c : Char) : Bool := c = '0' || c = '1'

def valueInBase (base : Nat) (digits : List Char) : Nat :=
  digits.foldl (fun n c => base * n + (Text.hexDigitValue? c).getD 0) 0

def moreDigits? (isDigit : Char → Bool) : List Char → Option (List Char)
  | [] => some []
  | [c] => if isDigit c then some [c] else none
  | c :: d :: rest =>
    if isDigit c then (moreDigits? isDigit (d :: rest)).map (c :: ·)
    else if c = '_' ∧ isDigit d then (moreDigits? isDigit rest).map (d :: ·)
    else none

/-- Digits with single underscores between them, without the underscores. -/
def digits? (isDigit : Char → Bool) : List Char → Option (List Char)
  | [] => none
  | c :: rest => if isDigit c then (moreDigits? isDigit rest).map (c :: ·) else none

def wholeDigits? (text : List Char) : Option (List Char) :=
  match digits? Char.isDigit text with
  | some ['0'] => if text = ['0'] then some ['0'] else none
  | some ('0' :: _) => none
  | found => found

/-! ## Numbers -/

def fit? (n : Int) : Option Int := if IntegerWidth.i64.contains n then some n else none

def integer? (text : List Char) : Option Int :=
  match text with
  | '0' :: 'x' :: rest => (digits? isHexDigit rest).bind fun ds => fit? (valueInBase 16 ds)
  | '0' :: 'o' :: rest => (digits? isOctalDigit rest).bind fun ds => fit? (valueInBase 8 ds)
  | '0' :: 'b' :: rest => (digits? isBinaryDigit rest).bind fun ds => fit? (valueInBase 2 ds)
  | _ =>
    let (negative, rest) := Decimal.splitSign text
    (wholeDigits? rest).bind fun ds =>
      fit? (if negative then -(Decimal.valueOfDigits ds : Int) else Decimal.valueOfDigits ds)

def isExponentMark (c : Char) : Bool := c = 'e' || c = 'E'

def fraction? : List Char → Option (List Char)
  | [] => some []
  | '.' :: rest => digits? Char.isDigit rest
  | _ => none

def exponent? : List Char → Option Int
  | [] => some 0
  | _ :: rest =>
    let (negative, digits) := Decimal.splitSign rest
    (digits? Char.isDigit digits).map fun ds =>
      if negative then -(Decimal.valueOfDigits ds : Int) else Decimal.valueOfDigits ds

def decimal? (text : List Char) : Option Float := do
  let mantissa := text.takeWhile (!isExponentMark ·)
  let power := text.dropWhile (!isExponentMark ·)
  let whole := mantissa.takeWhile (· != '.')
  let point := mantissa.dropWhile (· != '.')
  if power.isEmpty && point.isEmpty then none
  else
    let digits ← wholeDigits? whole
    let fraction ← fraction? point
    let exponent ← exponent? power
    return Decimal.nearest (Decimal.valueOfDigits (digits ++ fraction)) (exponent - fraction.length)

def namedFloat? (text : List Char) : Option Float :=
  if text = "inf".toList then some (1 / 0)
  else if text = "nan".toList then some (0 / 0)
  else none

/-- A double. A decimal that is too large is refused; a negative one becomes infinite. -/
def float? (text : List Char) : Option Float :=
  let (negative, rest) := Decimal.splitSign text
  match decimal? rest with
  | some x => if negative then some (-x) else if x.isInf then none else some x
  | none => (namedFloat? rest).map fun x => if negative then -x else x

/-! ## Dates and times -/

def twoDigits? (greatest : Nat) (a b : Char) : Option Nat :=
  let n := Decimal.valueOfDigits [a, b]
  if a.isDigit && b.isDigit && n ≤ greatest then some n else none

def isLeapYear (year : Nat) : Bool := year % 4 = 0 && (year % 100 != 0 || year % 400 = 0)

def daysInMonth (year month : Nat) : Nat :=
  match month with
  | 2 => if isLeapYear year then 29 else 28
  | 4 | 6 | 9 | 11 => 30
  | _ => 31

def isDate : List Char → Bool
  | [y₁, y₂, y₃, y₄, '-', m₁, m₂, '-', d₁, d₂] =>
    let year := [y₁, y₂, y₃, y₄]
    match twoDigits? 12 m₁ m₂, twoDigits? 31 d₁ d₂ with
    | some month, some day =>
      year.all Char.isDigit && 0 < month && 0 < day
        && day ≤ daysInMonth (Decimal.valueOfDigits year) month
    | _, _ => false
  | _ => false

def isOffset : List Char → Bool
  | ['Z'] | ['z'] => true
  | [sign, h₁, h₂, ':', m₁, m₂] =>
    (sign = '+' || sign = '-') && (twoDigits? 23 h₁ h₂).isSome && (twoDigits? 59 m₁ m₂).isSome
  | _ => false

def isAfterSeconds (offsetAllowed : Bool) (text : List Char) : Bool :=
  let offset (rest : List Char) : Bool := rest.isEmpty || (offsetAllowed && isOffset rest)
  match text with
  | '.' :: rest => !(rest.takeWhile Char.isDigit).isEmpty && offset (rest.dropWhile Char.isDigit)
  | rest => offset rest

/-- A time of day. The seconds may be those of a leap second. -/
def isTime (offsetAllowed : Bool) : List Char → Bool
  | h₁ :: h₂ :: ':' :: m₁ :: m₂ :: ':' :: s₁ :: s₂ :: rest =>
    (twoDigits? 23 h₁ h₂).isSome && (twoDigits? 59 m₁ m₂).isSome && (twoDigits? 60 s₁ s₂).isSome
      && isAfterSeconds offsetAllowed rest
  | _ => false

def isDateTime (text : List Char) : Bool :=
  isDate text || isTime false text
    || (isDate (text.take 10)
      && match text.drop 10 with
        | mark :: rest => (mark = 'T' || mark = 't') && isTime true rest
        | [] => false)

/-! ## Scalars -/

def scalar? (text : List Char) : Option Item :=
  if text = "true".toList then some (.boolean true)
  else if text = "false".toList then some (.boolean false)
  else if isDateTime text then some (.dateTime (String.ofList text))
  else ((float? text).map Item.float).or ((integer? text).map Item.integer)

end ContractFixture.Toml
