import ContractFixture.Json.Decode
import ContractFixture.Rule.Table

/-! # Rules in documents -/

namespace ContractFixture

/-! ## Writing -/

def RuleKind.name : RuleKind → String
  | .byType => "type"
  | .byPattern => "regex"

namespace Rule

def ifSet {α : Type} (name : String) (toJson : α → Json) : Option α → List (String × Json)
  | none => []
  | some value => [(name, toJson value)]

def countJson (n : UInt64) : Json := .int n.toNat

/-- The rule as an object with its members in key order. -/
def toJson (rule : Rule) : Json :=
  .obj (("match", .str rule.kind.name) :: ifSet "max" countJson rule.max
    ++ ifSet "min" countJson rule.min ++ ifSet "regex" .str rule.pattern)

/-- The rule as an object with its members as a rule lists its attributes. -/
def toJsonAsListed (rule : Rule) : Json :=
  .obj (("match", .str rule.kind.name) :: ifSet "min" countJson rule.min
    ++ ifSet "max" countJson rule.max ++ ifSet "regex" .str rule.pattern)

end Rule

namespace RuleTable

def toJson (table : RuleTable) : Json :=
  .obj (table.entries.map fun entry => (entry.1, entry.2.toJson))

/-- The table in one line, paths in order and each rule's attributes as a rule lists them. -/
def text (table : RuleTable) : String :=
  (Json.obj (table.entries.map fun entry => (entry.1, entry.2.toJsonAsListed))).compact

end RuleTable

/-! ## Reading -/

def RuleKind.choices : List (String × RuleKind) := [("type", .byType), ("regex", .byPattern)]

def RuleKind.ofJson (document : Json) : Decoded RuleKind := Json.choose choices false document

namespace Rule

structure Draft where
  kind : Option RuleKind := none
  min : Option (Option UInt64) := none
  max : Option (Option UInt64) := none
  pattern : Option (Option String) := none

def Draft.add (draft : Draft) (member : String × Json) : Decoded Draft :=
  let (key, value) := member
  match key with
  | "match" => do
    return { draft with kind := ← Json.fill "match" draft.kind (RuleKind.ofJson value) }
  | "min" => do
    return { draft with min := ← Json.fill "min" draft.min (Json.optional Json.count value) }
  | "max" => do
    return { draft with max := ← Json.fill "max" draft.max (Json.optional Json.count value) }
  | "regex" => do
    let pattern := Json.optional Json.string value
    return { draft with pattern := ← Json.fill "regex" draft.pattern pattern }
  | _ => .ok draft

def Draft.finish (draft : Draft) : Decoded Rule := do
  let kind ← Json.require "match" draft.kind
  return ⟨kind, draft.min.join, draft.max.join, draft.pattern.join⟩

def ofItems (items : List Json) : Decoded Rule := do
  let kind ← Json.positioned items 0 "struct MatchingRule with 4 elements" RuleKind.ofJson
  let min ← Json.positioned? items 1 (Json.optional Json.count)
  let max ← Json.positioned? items 2 (Json.optional Json.count)
  let pattern ← Json.positioned? items 3 (Json.optional Json.string)
  Json.noMoreThan items 4
  return ⟨kind, min.join, max.join, pattern.join⟩

def ofJson : Json → Decoded Rule
  | .obj members => do (← members.foldlM Draft.add {}).finish
  | .arr items => ofItems items
  | other => .error (.invalidType other "struct MatchingRule")

end Rule

def RuleTable.entryOfMember (member : String × Json) : Decoded (String × Rule) := do
  return (member.1, ← Rule.ofJson member.2)

def RuleTable.ofJson : Json → Decoded RuleTable
  | .obj members => do return RuleTable.ofList (← members.mapM entryOfMember)
  | other => .error (.invalidType other "a map")

end ContractFixture
