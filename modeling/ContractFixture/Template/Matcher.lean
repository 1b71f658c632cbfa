import ContractFixture.Rule.Basic
import ContractFixture.Template.Basic

/-! # Matchers -/

namespace ContractFixture

/-- A node of a template that carries a rule. -/
inductive Matcher where
  | like (contents : Template)
  | pattern (sample : String) (form : String)
  | each (contents : Template) (min : UInt64) (max : UInt64)
  | rawText (text : String)
  | object (fields : List (String × Template))

def Matcher.toTemplate : Matcher → Template
  | .like contents => .like contents
  | .pattern sample form => .pattern sample form
  | .each contents min max => .each contents min max
  | .rawText text => .rawText text
  | .object fields => .object fields

def Template.matcher? : Template → Option Matcher
  | .literal _ | .map _ | .list _ => none
  | .like contents => some (.like contents)
  | .pattern sample form => some (.pattern sample form)
  | .each contents min max => some (.each contents min max)
  | .rawText text => some (.rawText text)
  | .object fields => some (.object fields)

def Template.isMatcher (template : Template) : Bool := template.matcher?.isSome

@[simp] theorem Matcher.matcher?_toTemplate (m : Matcher) : m.toTemplate.matcher? = some m := by
  cases m <;> rfl

theorem Template.matcher?_eq_some_iff {t : Template} {m : Matcher} :
    t.matcher? = some m ↔ t = m.toTemplate := by
  constructor
  · intro h
    cases t <;> simp only [matcher?, Option.some.injEq, reduceCtorEq] at h
    all_goals exact h ▸ rfl
  · rintro rfl
    exact m.matcher?_toTemplate

namespace Matcher

instance : BEq Matcher := ⟨fun a b => a.toTemplate == b.toTemplate⟩

/-! ## What a matcher says -/

/-- What a matcher is called. A repetition is called after the bound that counts. -/
inductive Kind where
  | like
  | pattern
  | atLeast
  | atMost
  | rawText
  | object
deriving DecidableEq, Repr

def Kind.name : Kind → String
  | .like => "like"
  | .pattern => "regex"
  | .atLeast => "array_min_like"
  | .atMost => "array_max_like"
  | .rawText => "raw_string"
  | .object => "object"

def kind : Matcher → Kind
  | .like _ => .like
  | .pattern _ _ => .pattern
  | .each _ _ max => if max ≠ 0 then .atMost else .atLeast
  | .rawText _ => .rawText
  | .object _ => .object

def contents : Matcher → Template
  | .like contents => contents
  | .pattern sample _ => .ofString sample
  | .each contents _ _ => contents
  | .rawText text => .ofString text
  | .object fields => .map fields

/-- A list is bounded above if an upper bound is given, and else below. -/
def repetitionRule (min max : UInt64) : Rule :=
  if max ≠ 0 then Rule.byType.withMax max else Rule.byType.withMin min

def rule : Matcher → Rule
  | .like _ | .rawText _ | .object _ => .byType
  | .pattern _ form => .byPattern form
  | .each _ min max => repetitionRule min max

/-- There are `min` elements, but with an upper bound at least one and at most that many. -/
def repetitions (min max : UInt64) : UInt64 :=
  if max ≠ 0 then Min.min (Max.max min 1) max else min

def repetitions? : Matcher → Option UInt64
  | .each _ min max => some (repetitions min max)
  | _ => none

/-! ## Changing the bounds -/

def withMin (m : Matcher) (bound : UInt64) : Matcher :=
  match m with
  | .each contents _ max => .each contents bound max
  | other => other

def withMax (m : Matcher) (bound : UInt64) : Matcher :=
  match m with
  | .each contents min _ => .each contents min bound
  | other => other

end Matcher

end ContractFixture
