import ContractFixture.Width

/-! # Schemas -/

namespace ContractFixture

structure Field (σ : Type) where
  name : String
  /-- The name of the field in documents, if it differs. -/
  wireName : Option String
  type : σ
  hint : Option String

def Field.key {σ : Type} (field : Field σ) : String := field.wireName.getD field.name

inductive Schema where
  | pointer (target : Schema)
  | sequence (element : Schema)
  | array (element : Schema) (length : UInt64)
  | record (name : String) (fields : List (Field Schema))
  | string
  | boolean
  | integer (width : IntegerWidth)
  | float (width : FloatWidth)
  | map (value : Schema)
  | any
  /-- A type of which only the name is known. -/
  | foreign (name : String)

instance : Inhabited Schema := ⟨.any⟩

namespace Schema

/-! ## Kinds -/

inductive Kind where
  | pointer
  | sequence
  | array
  | record
  | string
  | boolean
  | integer
  | float
  | map
  | any
  | foreign
deriving DecidableEq, Repr

def Kind.choices : List (String × Kind) :=
  [("pointer", .pointer), ("sequence", .sequence), ("array", .array), ("struct", .record),
    ("string", .string), ("bool", .boolean), ("integer", .integer), ("float", .float),
    ("map", .map), ("any", .any), ("opaque", .foreign)]

def Kind.name : Kind → String
  | .pointer => "pointer"
  | .sequence => "sequence"
  | .array => "array"
  | .record => "struct"
  | .string => "string"
  | .boolean => "bool"
  | .integer => "integer"
  | .float => "float"
  | .map => "map"
  | .any => "any"
  | .foreign => "opaque"

def kind : Schema → Kind
  | .pointer _ => .pointer
  | .sequence _ => .sequence
  | .array _ _ => .array
  | .record _ _ => .record
  | .string => .string
  | .boolean => .boolean
  | .integer _ => .integer
  | .float _ => .float
  | .map _ => .map
  | .any => .any
  | .foreign _ => .foreign

/-! ## Pointers -/

/-- The schema behind all outer pointers. -/
def target : Schema → Schema
  | .pointer inner => target inner
  | other => other

/-! ## Comparison -/

mutual

def agrees : Schema → Schema → Bool
  | .pointer a, .pointer b => agrees a b
  | .sequence a, .sequence b => agrees a b
  | .array a m, .array b n => agrees a b && m == n
  | .record a as, .record b bs => a == b && fieldsAgree as bs
  | .string, .string => true
  | .boolean, .boolean => true
  | .integer a, .integer b => a == b
  | .float a, .float b => a == b
  | .map a, .map b => agrees a b
  | .any, .any => true
  | .foreign a, .foreign b => a == b
  | _, _ => false

def fieldsAgree : List (Field Schema) → List (Field Schema) → Bool
  | [], [] => true
  | ⟨m, v, a, s⟩ :: as, ⟨n, w, b, t⟩ :: bs =>
    m == n && v == w && agrees a b && s == t && fieldsAgree as bs
  | _, _ => false

end

instance : BEq Schema := ⟨agrees⟩

end Schema

end ContractFixture
