import ContractFixture.Json.Printer
import ContractFixture.Text.Quoted
import ContractFixture.Width

/-! # Taking values out of documents -/

namespace ContractFixture

inductive DecodeError where
  | missingField (name : String)
  | duplicateField (name : String)
  | unknownVariant (name : String) (choices : List String)
  | invalidType (found : Json) (expected : String)
  | invalidValue (found : Json) (expected : String)
  | invalidLength (length : Nat) (expected : String)

namespace DecodeError

def describe : Json → String
  | .null => "null"
  | .bool true => "boolean `true`"
  | .bool false => "boolean `false`"
  | .num (.int n) => "integer `" ++ String.ofList (intText n) ++ "`"
  | .num (.float x _) => "floating point `" ++ String.ofList (floatText x) ++ "`"
  | .str s => "string " ++ Text.quoted s
  | .arr _ => "sequence"
  | .obj _ => "map"

def inBackticks (name : String) : String := "`" ++ name ++ "`"

def oneOf : List String → String
  | [] => "there are no variants"
  | [a] => "expected " ++ inBackticks a
  | [a, b] => "expected " ++ inBackticks a ++ " or " ++ inBackticks b
  | names => "expected one of " ++ ", ".intercalate (names.map inBackticks)

def message : DecodeError → String
  | .missingField name => .join ["missing field ", inBackticks name]
  | .duplicateField name => .join ["duplicate field ", inBackticks name]
  | .unknownVariant name choices =>
    .join ["unknown variant ", inBackticks name, ", ", oneOf choices]
  | .invalidType found expected => .join ["invalid type: ", describe found, ", expected ", expected]
  | .invalidValue found expected =>
    .join ["invalid value: ", describe found, ", expected ", expected]
  | .invalidLength length expected =>
    .join ["invalid length ", toString length, ", expected ", expected]

end DecodeError

abbrev Decoded (α : Type) := Except DecodeError α

namespace Json

/-! ## Leaves -/

def string : Json → Decoded String
  | .str s => .ok s
  | other => .error (.invalidType other "a string")

def boolean : Json → Decoded Bool
  | .bool b => .ok b
  | other => .error (.invalidType other "a boolean")

def count : Json → Decoded UInt64
  | .num (.int n) =>
    if IntegerWidth.u64.contains n then .ok (UInt64.ofNat n.toNat)
    else .error (.invalidValue (.int n) "usize")
  | other => .error (.invalidType other "usize")

def int64 : Json → Decoded Int
  | .num (.int n) =>
    if IntegerWidth.i64.contains n then .ok n else .error (.invalidValue (.int n) "i64")
  | other => .error (.invalidType other "i64")

def double : Json → Decoded Float
  | .num (.float x _) => .ok x
  | .num (.int n) => .ok (Float.ofInt n)
  | other => .error (.invalidType other "f64")

def optional {α : Type} (decode : Json → Decoded α) : Json → Decoded (Option α)
  | .null => .ok none
  | document => (decode document).map some

/-! ## Choices -/

def chooseNamed {α : Type} (choices : List (String × α)) (name : String) : Decoded α :=
  match choices.find? (·.1 == name) with
  | some choice => .ok choice.2
  | none => .error (.unknownVariant name (choices.map (·.1)))

/-- A choice without contents: its name, or an object with its name as the only member and nothing
in it. Inside a type description, which is read as a whole first, an empty object is nothing too. -/
def choose {α : Type} (choices : List (String × α)) (emptyIsNothing : Bool) : Json → Decoded α
  | .str name => chooseNamed choices name
  | .obj [(name, contents)] => do
    let choice ← chooseNamed choices name
    match contents with
    | .null => return choice
    | .obj [] => if emptyIsNothing then return choice else .error (.invalidType (.obj []) "unit")
    | other => .error (.invalidType other "unit")
  | .obj members => .error (.invalidValue (.obj members) "map with a single key")
  | other => .error (.invalidType other "string or map")

/-! ## Records -/

/-- Fills a field that is still empty. A field may be given only once. -/
def fill {α : Type} (name : String) (field : Option α) (value : Decoded α) : Decoded (Option α) :=
  match field with
  | some _ => .error (.duplicateField name)
  | none => value.map some

def require {α : Type} (name : String) : Option α → Decoded α
  | some value => .ok value
  | none => .error (.missingField name)

def positioned? {α : Type} (items : List Json) (position : Nat) (decode : Json → Decoded α) :
    Decoded (Option α) :=
  match items[position]? with
  | some item => (decode item).map some
  | none => .ok none

def positioned {α : Type} (items : List Json) (position : Nat) (expected : String)
    (decode : Json → Decoded α) : Decoded α :=
  match items[position]? with
  | some item => decode item
  | none => .error (.invalidLength position expected)

def noMoreThan (items : List Json) (fields : Nat) : Decoded Unit :=
  if fields < items.length then .error (.invalidLength items.length "fewer elements in array")
  else .ok ()

end Json

end ContractFixture
