import ContractFixture.Hint.Pairs
import ContractFixture.Hint.Target
import ContractFixture.Decimal.Literal
import ContractFixture.Json.Basic

/-! # Annotations -/

namespace ContractFixture

inductive Sample where
  | boolean (value : Bool)
  | integer (value : Int)
  | float (value : Float)
  | string (text : String)

def Sample.toJson : Sample → Json
  | .boolean value => .bool value
  | .integer value => .int value
  | .float value => .ofFloat value
  | .string text => .str text

/-- What the annotation of a field says. -/
structure Hint where
  sample : Option Sample := none
  pattern : Option String := none
  min : Option UInt64 := none

namespace Hint

instance : Inhabited Hint := ⟨{}⟩

def defaultMin : UInt64 := 1

def minItems (hint : Hint) : UInt64 := hint.min.getD defaultMin

end Hint

inductive HintError where
  | malformedPair (segment : String)
  | unknownKey (key : String)
  | keyNotAllowed (key : String) (target : Hint.Target)
  | duplicateKey (key : String)
  | emptyValue (key : String)
  | patternWithoutExample
  | invalidLiteral (expected : String) (value : String)
  | outOfRange (value : Int) (width : IntegerWidth)
  | floatOutOfRange (literal : String) (width : FloatWidth)
  | notAnnotatable (target : Hint.Target)
deriving DecidableEq, Repr

def HintError.message : HintError → String
  | .malformedPair segment => .join ["expected `key=value`, found `", segment, "`"]
  | .unknownKey key => .join ["unknown key `", key, "`"]
  | .keyNotAllowed key target =>
    .join ["key `", key, "` is not accepted on ", target.label, " fields"]
  | .duplicateKey key => .join ["duplicate key `", key, "`"]
  | .emptyValue key => .join ["`", key, "` must not be empty"]
  | .patternWithoutExample => "`regex` requires a preceding `example`"
  | .invalidLiteral expected value => .join ["invalid ", expected, " literal `", value, "`"]
  | .outOfRange value width => .join [toString value, " is out of range for ", width.name]
  | .floatOutOfRange literal width => .join [literal, " is out of range for ", width.name]
  | .notAnnotatable target => .join [target.label, " fields do not take annotations"]

namespace Hint

open Text (trim isAllBlank)

abbrev Result (α : Type) := Except HintError α

/-! ## Literals -/

def invalid {α : Type} (expected : String) (value : List Char) : Result α :=
  .error (.invalidLiteral expected (String.ofList value))

def booleanSample (value : List Char) : Result Sample :=
  if trim value = "true".toList then .ok (.boolean true)
  else if trim value = "false".toList then .ok (.boolean false)
  else invalid "boolean" value

/-- The integer fits 128 bits. -/
def isWide (n : Int) : Bool := -(Nat.pow 2 127 : Nat) ≤ n && n < (Nat.pow 2 127 : Nat)

/-- An integer as an example. A document holds the words of 64 bits, with or without a sign. -/
def wordSample? (n : Int) : Option Sample :=
  if IntegerWidth.i64.contains n || IntegerWidth.u64.contains n then some (.integer n) else none

/-- An integer literal has to fit 128 bits before its width is looked at. -/
def integerSample (width : IntegerWidth) (value : List Char) : Result Sample :=
  match Decimal.integer? (trim value) with
  | none => invalid "integer" value
  | some n =>
    if !isWide n then invalid "integer" value
    else if !width.contains n then .error (.outOfRange n width)
    else
      match wordSample? n with
      | some sample => .ok sample
      | none => .error (.outOfRange n width)

def floatSample (width : FloatWidth) (value : List Char) : Result Sample :=
  match Decimal.double? (trim value) with
  | none => invalid "float" value
  | some x =>
    if !x.isFinite then invalid "float" value
    else if width.contains x then .ok (.float x)
    else .error (.floatOutOfRange (String.ofList (trim value)) width)

def readSample (target : Target) (value : List Char) : Result Sample :=
  match target with
  | .boolean => booleanSample value
  | .integer width => integerSample width value
  | .float width => floatSample width value
  | .string => .ok (.string (String.ofList value))
  | .sequence | .structured => .error (.keyNotAllowed Key.sample.name target)

def readMin (value : List Char) : Result UInt64 :=
  match Decimal.natural? (trim value) with
  | none => invalid "non-negative integer" value
  | some n =>
    if IntegerWidth.u64.contains n then .ok (UInt64.ofNat n)
    else invalid "non-negative integer" value

/-! ## Pairs -/

def has (hint : Hint) : Key → Bool
  | .sample => hint.sample.isSome
  | .pattern => hint.pattern.isSome
  | .min => hint.min.isSome

/-- Stores a value under its key. A pattern needs an example before it. -/
def set (hint : Hint) (target : Target) (key : Key) (value : List Char) : Result Hint :=
  match key with
  | .sample => do return { hint with sample := some (← readSample target value) }
  | .pattern =>
    if hint.sample.isNone then .error .patternWithoutExample
    else .ok { hint with pattern := some (String.ofList value) }
  | .min => do return { hint with min := some (← readMin value) }

def add (target : Target) (hint : Hint) (pair : Pair) : Result Hint :=
  let name := String.ofList pair.key
  match Key.ofName? name with
  | none => .error (.unknownKey name)
  | some key =>
    if !target.accepts key then .error (.keyNotAllowed name target)
    else if hint.has key then .error (.duplicateKey name)
    else if isAllBlank pair.value then .error (.emptyValue name)
    else hint.set target key pair.value

/-- What a text says as the annotation of a field of the kind. A blank one says nothing. -/
def parse (target : Target) (text : List Char) : Result Hint :=
  if isAllBlank text then .ok {}
  else if target = .structured then .error (.notAnnotatable target)
  else
    match pairs text with
    | .error segment => .error (.malformedPair (String.ofList segment))
    | .ok found => found.foldlM (add target) {}

end Hint

end ContractFixture
