import ContractFixture.Schema.Basic

/-! # What can be annotated -/

namespace ContractFixture.Hint

inductive Target where
  | boolean
  | integer (width : IntegerWidth)
  | float (width : FloatWidth)
  | string
  | sequence
  | structured
deriving DecidableEq, Repr

def Target.label : Target → String
  | .boolean => "boolean"
  | .integer width => "integer (" ++ width.name ++ ")"
  | .float width => "float (" ++ width.name ++ ")"
  | .string => "string"
  | .sequence => "sequence"
  | .structured => "structure"

/-- The kind of a field with this schema, or `none` if no example can be made for it. -/
def Target.ofSchema? (schema : Schema) : Option Target :=
  match schema.target with
  | .boolean => some .boolean
  | .integer width => some (.integer width)
  | .float width => some (.float width)
  | .string => some .string
  | .sequence _ | .array _ _ => some .sequence
  | .record _ _ => some .structured
  | .pointer _ | .map _ | .any | .foreign _ => none

inductive Key where
  | sample
  | pattern
  | min
deriving DecidableEq, Repr

def Key.name : Key → String
  | .sample => "example"
  | .pattern => "regex"
  | .min => "min"

def Key.ofName? (name : String) : Option Key := [sample, pattern, min].find? (·.name == name)

/-- Scalars take an example, strings also a pattern, lists a least length. -/
def Target.accepts : Target → Key → Bool
  | .boolean, .sample | .integer _, .sample | .float _, .sample => true
  | .string, .sample | .string, .pattern => true
  | .sequence, .min => true
  | _, _ => false

end ContractFixture.Hint
