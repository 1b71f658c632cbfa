import ContractFixture.Fixture.Log
import ContractFixture.Rule.Table
import ContractFixture.Template.Matcher

/-! # Fixtures -/

namespace ContractFixture

structure Fixture where
  body : Json
  rules : RuleTable

/-! ## The recorder -/

/-- The rules stored so far and what was reported, in order. A silent recorder takes up nothing. -/
structure Recorder where
  recording : Bool
  rules : RuleTable
  log : Array BuildEvent

namespace Recorder

def start : Recorder := ⟨true, .empty, #[]⟩

def silent : Recorder := ⟨false, .empty, #[]⟩

/-- Stores a rule at its path; at a path that is met again the later rule stays. -/
def store (path : Path) (rule : Rule) (r : Recorder) : Recorder :=
  if r.recording then
    { r with
      rules := r.rules.insert path.text rule
      log := r.log ++ BuildEvent.stored (r.rules.get? path.text) path rule }
  else r

def record (path : Path) (m : Matcher) : StateM Recorder Unit := modify (store path m.rule)

end Recorder

/-! ## The walk -/

namespace Template

open Recorder

mutual

/-- The document of a template that stands at `path`. A matcher is recorded before what it wraps. -/
def build (path : Path) : Template → StateM Recorder Json
  | .literal value => pure value
  | .map entries => do return .obj (← buildEntries path entries)
  | .list items => do return .arr (← buildItems path.items items)
  | .like contents => do
    record path (.like contents)
    build path contents
  | .pattern sample form => do
    record path (.pattern sample form)
    return .str sample
  | .each contents min max => do
    record path (.each contents min max)
    let element ← build path.items contents
    return .arr (List.replicate (Matcher.repetitions min max).toNat element)
  | .rawText text => do
    record path (.rawText text)
    return .str text
  | .object fields => do
    record path (.object fields)
    return .obj (← buildEntries path fields)

def buildItems (path : Path) : List Template → StateM Recorder (List Json)
  | [] => pure []
  | item :: rest => do
    let value ← build path item
    return value :: (← buildItems path rest)

def buildEntries (path : Path) : List (String × Template) → StateM Recorder (List (String × Json))
  | [] => pure []
  | (key, template) :: rest => do
    let value ← build (path.member key) template
    return (key, value) :: (← buildEntries path rest)

end

/-- The fixture that a template describes. -/
def fixture (template : Template) : Fixture :=
  let (body, recorder) := (template.build .root).run start
  ⟨body, recorder.rules⟩

def buildLog (template : Template) : List BuildEvent :=
  let (_, recorder) := (template.build .root).run start
  recorder.log.toList ++ [.built recorder.rules.size]

/-- The document in which every matcher is replaced by its example, without its rules. -/
def document (template : Template) : Json := ((template.build .root).run silent).1

end Template

def Matcher.document (m : Matcher) : Json := m.toTemplate.document

def Template.toJson (template : Template) : Json := template.document

def Matcher.toJson (m : Matcher) : Json := m.document

end ContractFixture
