import ContractFixture.Fixture.Basic
import ContractFixture.Synthesis.Defaults
import ContractFixture.Synthesis.Trace

/-!
# Templates from schemas

An annotation holds for its own field, through pointers, and never for the elements of a list.
-/

namespace ContractFixture

/-- What a message calls a schema: the name of a record, and else its kind. -/
def Schema.rootLabel (schema : Schema) : String :=
  match schema.target with
  | .record name _ => name
  | other => other.kind.name

def Schema.kindLabel : Schema → String
  | .foreign name => "opaque (" ++ name ++ ")"
  | other => other.kind.name

namespace Synthesis

/-! ## Leaves -/

def likeJson (value : Json) : Template := .like (.literal value)

def stringTemplate (d : Defaults) (hint : Hint) : Template :=
  let sample := match hint.sample with
    | some (.string text) => text
    | _ => d.string
  match hint.pattern with
  | some form => .pattern sample form
  | none => likeJson (.str sample)

def booleanTemplate (d : Defaults) (hint : Hint) : Template :=
  match hint.sample with
  | some (.boolean value) => likeJson (.bool value)
  | _ => likeJson (.bool d.boolean)

def integerTemplate (d : Defaults) (hint : Hint) (path : String) (width : IntegerWidth) :
    Except SynthesisError Template :=
  match hint.sample with
  | some (.integer value) => .ok (likeJson (.int value))
  | _ =>
    if width.contains d.integer then .ok (likeJson (.int d.integer))
    else .error (.defaultOutOfRange path d.integer width)

def floatTemplate (d : Defaults) (hint : Hint) : Template :=
  match hint.sample with
  | some (.float value) => likeJson (.ofFloat value)
  | _ => likeJson (.ofFloat d.float)

/-- For a schema that no template can be made from the annotation is not looked at. -/
def fieldHint (path : String) (type : Schema) (hint : Option String) :
    Except SynthesisError Hint :=
  match hint, Hint.Target.ofSchema? type with
  | some text, some target =>
    (Hint.parse target text.toList).mapError (.invalidHint path text)
  | _, _ => .ok {}

/-! ## The walk -/

mutual

/-- The template for a schema at `path`, with the annotation that holds there. -/
def templateAt (d : Defaults) (hint : Hint) (path : String) : Schema → Traced Template
  | .pointer target => templateAt d hint path target
  | .sequence element => do
    let contents ← templateAt d {} (path ++ "[]") element
    return .each contents (hint.min.getD d.minItems) 0
  | .array element _ => do
    let contents ← templateAt d {} (path ++ "[]") element
    return .each contents (hint.min.getD d.minItems) 0
  | .record name fields => do
    Traced.report (.entered name fields.length path)
    return .object (← fieldTemplates d name path [] fields)
  | .string => pure (stringTemplate d hint)
  | .boolean => pure (booleanTemplate d hint)
  | .integer width => Traced.silent (integerTemplate d hint path width)
  | .float _ => pure (floatTemplate d hint)
  | .map value => Traced.silent (.error (.unsupported path (Schema.map value).kindLabel))
  | .any => Traced.silent (.error (.unsupported path Schema.any.kindLabel))
  | .foreign name => Traced.silent (.error (.unsupported path (Schema.foreign name).kindLabel))

/-- Adds the templates of the fields to those of the fields before them. -/
def fieldTemplates (d : Defaults) (record : String) (path : String)
    (sofar : List (String × Template)) : List (Field Schema) → Traced (List (String × Template))
  | [] => pure sofar
  | ⟨name, wireName, type, hint⟩ :: rest => do
    let fieldPath := path ++ "." ++ name
    let hint ← Traced.silent (fieldHint fieldPath type hint)
    let template ← templateAt d hint fieldPath type
    let key := wireName.getD name
    if (Keyed.get? key sofar).isSome then Traced.report (.replaced record key)
    fieldTemplates d record path (Keyed.insert key template sofar) rest

end

end Synthesis

namespace Schema

def synthesis (schema : Schema) (d : Defaults) : Traced Template :=
  Synthesis.templateAt d {} schema.rootLabel schema

def template (schema : Schema) (d : Defaults) : Except SynthesisError Template :=
  (schema.synthesis d).outcome

/-- The log of making the template. A failure is reported at the end. -/
def templateLog (schema : Schema) (d : Defaults) : List SynthesisEvent :=
  let failure := match (schema.synthesis d).outcome with
    | .ok _ => []
    | .error e => [.failed e]
  .started schema.rootLabel :: (schema.synthesis d).events ++ failure

def fixture (schema : Schema) (d : Defaults) : Except SynthesisError Fixture :=
  (schema.template d).map Template.fixture

def fixtureLog (schema : Schema) (d : Defaults) : List LogRecord :=
  let build := match schema.template d with
    | .ok template => template.buildLog
    | .error _ => []
  (schema.templateLog d).map SynthesisEvent.toRecord ++ build.map BuildEvent.toRecord

end Schema

end ContractFixture
