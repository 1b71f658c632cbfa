import ContractFixture.Hint.Basic
import ContractFixture.Json.Decode

/-! # Default examples -/

namespace ContractFixture

/-- The examples for fields without an annotation. -/
structure Defaults where
  string : String := "string"
  boolean : Bool := true
  integer : Int := 1
  float : Float := 1.1
  minItems : UInt64 := Hint.defaultMin

instance : Inhabited Defaults := ⟨{}⟩

inductive DefaultsError where
  | unreadableFile
  | malformedText
  | blankString
  | floatNotFinite (value : Float)

namespace DefaultsError

def showNotFinite (x : Float) : String :=
  if x.isNaN then "NaN" else if x < 0 then "-inf" else "inf"

def message? : DefaultsError → Option String
  | .unreadableFile | .malformedText => none
  | .blankString => some "invalid value for `string_example`: must be non-empty"
  | .floatNotFinite x =>
    some ("invalid value for `float_example`: must be finite, got " ++ showNotFinite x)

end DefaultsError

namespace Defaults

/-- A string has to show something and a double has to be finite. -/
def validate (d : Defaults) : Except DefaultsError Unit :=
  if Text.isAllBlank d.string.toList then .error .blankString
  else if !d.float.isFinite then .error (.floatNotFinite d.float)
  else .ok ()

/-! ## Documents -/

inductive Setting where
  | string
  | boolean
  | integer
  | float
  | minItems
deriving DecidableEq, Repr

def Setting.name : Setting → String
  | .string => "string_example"
  | .boolean => "bool_example"
  | .integer => "integer_example"
  | .float => "float_example"
  | .minItems => "min_items"

def Setting.alias : Setting → String
  | .string => "stringExample"
  | .boolean => "boolExample"
  | .integer => "integerExample"
  | .float => "floatExample"
  | .minItems => "minItems"

def Setting.all : List Setting := [.string, .boolean, .integer, .float, .minItems]

def Setting.ofName? (name : String) : Option Setting :=
  Setting.all.find? fun s => s.name == name || s.alias == name

structure Draft where
  string : Option String := none
  boolean : Option Bool := none
  integer : Option Int := none
  float : Option Float := none
  minItems : Option UInt64 := none

def Draft.add (draft : Draft) (member : String × Json) : Decoded Draft :=
  let (key, value) := member
  match Setting.ofName? key with
  | some .string => do
    return { draft with string := ← Json.fill "string_example" draft.string (Json.string value) }
  | some .boolean => do
    return { draft with boolean := ← Json.fill "bool_example" draft.boolean (Json.boolean value) }
  | some .integer => do
    return { draft with integer := ← Json.fill "integer_example" draft.integer (Json.int64 value) }
  | some .float => do
    return { draft with float := ← Json.fill "float_example" draft.float (Json.double value) }
  | some .minItems => do
    return { draft with minItems := ← Json.fill "min_items" draft.minItems (Json.count value) }
  | none => .ok draft

def Draft.finish (draft : Draft) : Defaults :=
  let builtIn : Defaults := {}
  { string := draft.string.getD builtIn.string
    boolean := draft.boolean.getD builtIn.boolean
    integer := draft.integer.getD builtIn.integer
    float := draft.float.getD builtIn.float
    minItems := draft.minItems.getD builtIn.minItems }

def ofItems (items : List Json) : Decoded Defaults := do
  let string ← Json.positioned? items 0 Json.string
  let boolean ← Json.positioned? items 1 Json.boolean
  let integer ← Json.positioned? items 2 Json.int64
  let float ← Json.positioned? items 3 Json.double
  let minItems ← Json.positioned? items 4 Json.count
  Json.noMoreThan items 5
  return Draft.finish ⟨string, boolean, integer, float, minItems⟩

def ofJson : Json → Decoded Defaults
  | .obj members => do return (← members.foldlM Draft.add {}).finish
  | .arr items => ofItems items
  | other => .error (.invalidType other "struct SynthesisDefaults")

def toJson (d : Defaults) : Json :=
  .obj [("bool_example", .bool d.boolean), ("float_example", .ofFloat d.float),
    ("integer_example", .int d.integer), ("min_items", .int d.minItems.toNat),
    ("string_example", .str d.string)]

end Defaults

end ContractFixture
