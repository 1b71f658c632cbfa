import ContractFixture.Text.Quoted

/-! # Matching rules -/

namespace ContractFixture

inductive RuleKind where
  | byType
  | byPattern
deriving DecidableEq, Repr

/-- How the values at one path are compared. -/
structure Rule where
  kind : RuleKind
  min : Option UInt64
  max : Option UInt64
  pattern : Option String
deriving DecidableEq, Repr

namespace Rule

def byType : Rule := ⟨.byType, none, none, none⟩

def byPattern (pattern : String) : Rule := ⟨.byPattern, none, none, some pattern⟩

def withMin (rule : Rule) (min : UInt64) : Rule := { rule with min := some min }

def withMax (rule : Rule) (max : UInt64) : Rule := { rule with max := some max }

end Rule

/-! ## How log messages show a rule -/

def RuleKind.label : RuleKind → String
  | .byType => "Type"
  | .byPattern => "Regex"

def Rule.showOption {α : Type} (show1 : α → String) : Option α → String
  | none => "None"
  | some value => "Some(" ++ show1 value ++ ")"

def Rule.label (rule : Rule) : String :=
  .join ["MatchingRule \x7b kind: ", rule.kind.label,
    ", min: ", showOption (fun n => toString n.toNat) rule.min,
    ", max: ", showOption (fun n => toString n.toNat) rule.max,
    ", regex: ", showOption Text.quoted rule.pattern, " \x7d"]

end ContractFixture
