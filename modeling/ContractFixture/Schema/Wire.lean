import ContractFixture.Json.Decode
import ContractFixture.Schema.Basic

/-! # Schemas in documents -/

namespace ContractFixture

/-! ## Writing -/

def Schema.textMember (name : String) : Option String → List (String × Json)
  | none => []
  | some text => [(name, .str text)]

namespace Schema

mutual

def toJson : Schema → Json
  | .pointer target => .obj [("kind", .str "pointer"), ("to", toJson target)]
  | .sequence element => .obj [("element", toJson element), ("kind", .str "sequence")]
  | .array element length =>
    .obj [("element", toJson element), ("kind", .str "array"), ("len", .int length.toNat)]
  | .record name fields =>
    .obj [("fields", .arr (fieldsToJson fields)), ("kind", .str "struct"), ("name", .str name)]
  | .string => .obj [("kind", .str "string")]
  | .boolean => .obj [("kind", .str "bool")]
  | .integer width => .obj [("kind", .str "integer"), ("width", .str width.name)]
  | .float width => .obj [("kind", .str "float"), ("width", .str width.name)]
  | .map value => .obj [("kind", .str "map"), ("value", toJson value)]
  | .any => .obj [("kind", .str "any")]
  | .foreign name => .obj [("kind", .str "opaque"), ("name", .str name)]

def fieldsToJson : List (Field Schema) → List Json
  | [] => []
  | ⟨name, wireName, type, hint⟩ :: rest =>
    .obj (textMember "annotation" hint
      ++ ("name", .str name) :: ("type", toJson type) :: textMember "wireName" wireName)
      :: fieldsToJson rest

end

/-! ## What belongs to a kind -/

inductive Part where
  | target
  | length
  | name
  | fields
  | integerWidth
  | floatWidth
deriving DecidableEq, Repr

/-- The members of a kind, in the order of its list form. -/
def Kind.parts : Kind → List (String × Part)
  | .pointer => [("to", .target)]
  | .sequence => [("element", .target)]
  | .array => [("element", .target), ("len", .length)]
  | .record => [("name", .name), ("fields", .fields)]
  | .integer => [("width", .integerWidth)]
  | .float => [("width", .floatWidth)]
  | .map => [("value", .target)]
  | .foreign => [("name", .name)]
  | .string | .boolean | .any => []

def Kind.part? (kind : Kind) (key : String) : Option Part :=
  (kind.parts.find? (·.1 == key)).map (·.2)

def Kind.expected (kind : Kind) : String :=
  let label := match kind with
    | .pointer => "Pointer"
    | .sequence => "Sequence"
    | .array => "Array"
    | .record => "Struct"
    | .string => "String"
    | .boolean => "Bool"
    | .integer => "Integer"
    | .float => "Float"
    | .map => "Map"
    | .any => "Any"
    | .foreign => "Opaque"
  let count := match kind.parts.length with
    | 1 => "1 element"
    | n => toString n ++ " elements"
  .join ["struct variant TypeDef::", label, " with ", count]

def surplus {α : Type} (taken : Nat) (left : List Json) : Decoded α :=
  .error (.invalidLength (taken + left.length)
    (match taken with
      | 1 => "1 element in sequence"
      | n => toString n ++ " elements in sequence"))

/-- A kind by its name. Inside another schema it may also be given by its position. -/
def Kind.ofJson (nested : Bool) : Json → Decoded Kind
  | .str name => Json.chooseNamed choices name
  | .num (.int n) =>
    if nested ∧ 0 ≤ n then
      match choices[n.toNat]? with
      | some choice => .ok choice.2
      | none => .error (.invalidValue (.int n) "variant index 0 <= i < 11")
    else .error (.invalidType (.int n) "variant identifier")
  | other => .error (.invalidType other "variant identifier")

def Kind.ofMembers (nested : Bool) (found : Option Kind) : List (String × Json) → Decoded Kind
  | [] => Json.require "kind" found
  | (key, value) :: rest =>
    if key = "kind" then do
      ofMembers nested (← Json.fill "kind" found (Kind.ofJson nested value)) rest
    else ofMembers nested found rest

/-! ## Reading -/

structure Draft where
  target : Option Schema := none
  length : Option UInt64 := none
  name : Option String := none
  fields : Option (List (Field Schema)) := none
  integerWidth : Option IntegerWidth := none
  floatWidth : Option FloatWidth := none

def Draft.need {α : Type} (absent : String → DecodeError) (key : String) : Option α → Decoded α
  | some value => .ok value
  | none => .error (absent key)

def Draft.finish (draft : Draft) (kind : Kind) (absent : String → DecodeError) : Decoded Schema :=
  match kind with
  | .pointer => do return .pointer (← need absent "to" draft.target)
  | .sequence => do return .sequence (← need absent "element" draft.target)
  | .array => do
    return .array (← need absent "element" draft.target) (← need absent "len" draft.length)
  | .record => do return .record (← need absent "name" draft.name) (draft.fields.getD [])
  | .string => .ok .string
  | .boolean => .ok .boolean
  | .integer => .ok (.integer (draft.integerWidth.getD default))
  | .float => .ok (.float (draft.floatWidth.getD default))
  | .map => do return .map (← need absent "value" draft.target)
  | .any => .ok .any
  | .foreign => do return .foreign (← need absent "name" draft.name)

def Kind.absentItem (kind : Kind) (key : String) : DecodeError :=
  .invalidLength (kind.parts.findIdx (·.1 == key)) kind.expected

structure FieldDraft where
  name : Option String := none
  wireName : Option (Option String) := none
  type : Option Schema := none
  hint : Option (Option String) := none

def FieldDraft.finish (draft : FieldDraft) (absent : String → DecodeError) :
    Decoded (Field Schema) := do
  let name ← Draft.need absent "name" draft.name
  let type ← Draft.need absent "type" draft.type
  return ⟨name, draft.wireName.join, type, draft.hint.join⟩

def absentFieldItem (key : String) : DecodeError :=
  .invalidLength (if key = "name" then 0 else 2) "struct FieldDef with 4 elements"

mutual

/-- The schema that a document describes; `nested` if it stands inside another one. -/
def decode (nested : Bool) : Json → Decoded Schema
  | .obj members => do
    let kind ← Kind.ofMembers nested none members
    let draft ← addMembers kind {} members
    draft.finish kind .missingField
  | .arr [] => .error (.missingField "kind")
  | .arr (tag :: items) => do
    let kind ← Kind.ofJson nested tag
    let draft ← addItems kind.parts.length {} kind.parts items
    draft.finish kind kind.absentItem
  | other => .error (.invalidType other "internally tagged enum TypeDef")

def addMembers (kind : Kind) (draft : Draft) : List (String × Json) → Decoded Draft
  | [] => .ok draft
  | (key, value) :: rest =>
    match kind.part? key with
    | none => addMembers kind draft rest
    | some .target => do
      addMembers kind { draft with target := ← Json.fill key draft.target (decode true value) } rest
    | some .length => do
      addMembers kind { draft with length := ← Json.fill key draft.length (Json.count value) } rest
    | some .name => do
      addMembers kind { draft with name := ← Json.fill key draft.name (Json.string value) } rest
    | some .fields => do
      let fields := decodeFields value
      addMembers kind { draft with fields := ← Json.fill key draft.fields fields } rest
    | some .integerWidth => do
      let width := Json.choose IntegerWidth.choices true value
      addMembers kind { draft with integerWidth := ← Json.fill key draft.integerWidth width } rest
    | some .floatWidth => do
      let width := Json.choose FloatWidth.choices true value
      addMembers kind { draft with floatWidth := ← Json.fill key draft.floatWidth width } rest

/-- Takes up the elements of a list form, of which `total` belong to the kind. -/
def addItems (total : Nat) (draft : Draft) (parts : List (String × Part)) :
    List Json → Decoded Draft
  | [] => .ok draft
  | item :: rest =>
    match parts with
    | [] => surplus total (item :: rest)
    | (_, .target) :: parts => do
      addItems total { draft with target := some (← decode true item) } parts rest
    | (_, .length) :: parts => do
      addItems total { draft with length := some (← Json.count item) } parts rest
    | (_, .name) :: parts => do
      addItems total { draft with name := some (← Json.string item) } parts rest
    | (_, .fields) :: parts => do
      addItems total { draft with fields := some (← decodeFields item) } parts rest
    | (_, .integerWidth) :: parts => do
      let width ← Json.choose IntegerWidth.choices true item
      addItems total { draft with integerWidth := some width } parts rest
    | (_, .floatWidth) :: parts => do
      let width ← Json.choose FloatWidth.choices true item
      addItems total { draft with floatWidth := some width } parts rest

def decodeFields : Json → Decoded (List (Field Schema))
  | .arr items => fieldsOfItems items
  | other => .error (.invalidType other "a sequence")

def fieldsOfItems : List Json → Decoded (List (Field Schema))
  | [] => .ok []
  | item :: rest => do return (← decodeField item) :: (← fieldsOfItems rest)

def decodeField : Json → Decoded (Field Schema)
  | .obj members => do (← addFieldMembers {} members).finish .missingField
  | .arr items => do (← addFieldItems {} 0 items).finish absentFieldItem
  | other => .error (.invalidType other "struct FieldDef")

def addFieldMembers (draft : FieldDraft) : List (String × Json) → Decoded FieldDraft
  | [] => .ok draft
  | (key, value) :: rest =>
    match key with
    | "name" => do
      addFieldMembers { draft with name := ← Json.fill key draft.name (Json.string value) } rest
    | "wireName" => do
      let wireName := Json.optional Json.string value
      addFieldMembers { draft with wireName := ← Json.fill key draft.wireName wireName } rest
    | "type" => do
      addFieldMembers { draft with type := ← Json.fill key draft.type (decode true value) } rest
    | "annotation" => do
      let hint := Json.optional Json.string value
      addFieldMembers { draft with hint := ← Json.fill key draft.hint hint } rest
    | _ => addFieldMembers draft rest

def addFieldItems (draft : FieldDraft) (position : Nat) : List Json → Decoded FieldDraft
  | [] => .ok draft
  | item :: rest =>
    match position with
    | 0 => do addFieldItems { draft with name := some (← Json.string item) } 1 rest
    | 1 => do
      addFieldItems { draft with wireName := some (← Json.optional Json.string item) } 2 rest
    | 2 => do addFieldItems { draft with type := some (← decode true item) } 3 rest
    | 3 => do
      addFieldItems { draft with hint := some (← Json.optional Json.string item) } 4 rest
    | taken => surplus taken (item :: rest)

end

def ofJson (document : Json) : Decoded Schema := decode false document

end Schema

end ContractFixture
