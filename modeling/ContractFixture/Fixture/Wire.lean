import ContractFixture.Fixture.Basic
import ContractFixture.Rule.Wire

/-! # Fixtures as documents -/

namespace ContractFixture.Fixture

def toJson (fixture : Fixture) : Json :=
  .obj [("body", fixture.body), ("matchingRules", fixture.rules.toJson)]

def pretty (fixture : Fixture) : String := fixture.toJson.pretty

structure Draft where
  body : Option Json := none
  rules : Option RuleTable := none

def Draft.add (draft : Draft) (member : String × Json) : Decoded Draft :=
  let (key, value) := member
  match key with
  | "body" => do return { draft with body := ← Json.fill "body" draft.body (.ok value) }
  | "matchingRules" => do
    return { draft with rules := ← Json.fill "matchingRules" draft.rules (RuleTable.ofJson value) }
  | _ => .ok draft

def Draft.finish (draft : Draft) : Decoded Fixture := do
  let body ← Json.require "body" draft.body
  let rules ← Json.require "matchingRules" draft.rules
  return ⟨body, rules⟩

def ofItems (items : List Json) : Decoded Fixture := do
  let body ← Json.positioned items 0 "struct PactBody with 2 elements" .ok
  let rules ← Json.positioned items 1 "struct PactBody with 2 elements" RuleTable.ofJson
  Json.noMoreThan items 2
  return ⟨body, rules⟩

def ofJson : Json → Decoded Fixture
  | .obj members => do (← members.foldlM Draft.add {}).finish
  | .arr items => ofItems items
  | other => .error (.invalidType other "struct PactBody")

end ContractFixture.Fixture
