import ContractFixture.Log
import ContractFixture.Path
import ContractFixture.Rule.Basic

/-! # The log of building a fixture -/

namespace ContractFixture

inductive BuildEvent where
  | recorded (path : Path) (kind : RuleKind)
  | collided (path : Path) (previous replacement : Rule)
  | built (rules : Nat)
deriving DecidableEq, Repr

namespace BuildEvent

/-- What is reported when `rule` is stored at `path`, where `previous` stood before. -/
def stored (previous : Option Rule) (path : Path) (rule : Rule) : List BuildEvent :=
  .recorded path rule.kind ::
    match previous with
    | some previous => if previous = rule then [] else [.collided path previous rule]
    | none => []

def isCollision : BuildEvent → Bool
  | .collided _ _ _ => true
  | _ => false

def toRecord : BuildEvent → LogRecord
  | .recorded path kind =>
    .event .trace "matching rule recorded" [("path", .str path.text), ("kind", .str kind.label)]
  | .collided path previous replacement =>
    .event .warn "matching rule path collision; keeping the later rule"
      [("path", .str path.text), ("previous", .str previous.label),
        ("replacement", .str replacement.label)]
  | .built rules => .event .debug "built pact body" [("rules", .int rules)]

end BuildEvent

end ContractFixture
