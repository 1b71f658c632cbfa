import ContractFixture.Proofs.Fixture.Rules
import ContractFixture.Proofs.Path.Text
import ContractFixture.Proofs.Template.Matcher

/-! # The fixture of a matcher from that of its contents -/

namespace ContractFixture

namespace Template

/-! ## Rules by what follows the root -/

def Visit.tail (visit : Visit) : String × Rule :=
  (String.ofList (Path.stepsText visit.steps), visit.rule)

theorem entries_under (path : Path) (visits : List Visit) :
    visits.map (Visit.entryFrom path) = Keyed.under path.text (visits.map Visit.tail) := by
  have each : ∀ visit : Visit,
      visit.entryFrom path = (path.text ++ visit.tail.1, visit.tail.2) := by
    intro visit
    have text : (visit.pathFrom path).text = path.text ++ visit.tail.1 := by
      rw [← String.toList_inj, String.toList_append, Visit.pathFrom, Path.toList_text_follow,
        Visit.tail, String.toList_ofList]
    rw [Visit.entryFrom, text]
    rfl
  rw [Keyed.under, List.map_map]
  exact List.map_congr_left fun visit _ => each visit

theorem entries_fixture (t : Template) :
    t.fixture.rules.entries = Keyed.ofList (t.visits.map (Visit.entryFrom .root)) := by
  rw [rules_fixture_eq]
  rfl

theorem entries_fixture_under (t : Template) :
    t.fixture.rules.entries =
      Keyed.under Path.root.text (Keyed.ofList (t.visits.map Visit.tail)) := by
  rw [entries_fixture, entries_under, Keyed.ofList_under]

end Template

open Template

namespace Matcher

/-! ## One matcher -/

/-- The path of what a matcher at `path` wraps. -/
def contentsPath (path : Path) : Matcher → Path
  | .each _ _ _ => path.items
  | _ => path

theorem entries_visits (m : Matcher) (path : Path) :
    m.toTemplate.visits.map (Visit.entryFrom path) =
      (path.text, m.rule) :: m.contents.visits.map (Visit.entryFrom (m.contentsPath path)) := by
  cases m with
  | like contents =>
    rw [entries_visits_eq, toTemplate, children, List.flatMap_singleton]
    rfl
  | pattern sample form => rfl
  | each contents min max => exact entries_visits_each path contents min max
  | rawText text => rfl
  | object fields =>
    -- A map has the children of the object, but no rule of its own.
    have map : (Template.map fields).visits.map (Visit.entryFrom path) =
        fields.flatMap fun e => e.2.visits.map (Visit.entryFrom (path.member e.1)) := by
      rw [entries_visits_eq, children, List.flatMap_map]
      rfl
    have own := entries_visits_object path fields
    rw [← map] at own
    exact own

theorem entries_fixture_eq (m : Matcher) :
    m.toTemplate.fixture.rules.entries =
      if Path.root.text ∈ (m.contents.visits.map (Visit.entryFrom (m.contentsPath .root))).map (·.1)
      then Keyed.ofList (m.contents.visits.map (Visit.entryFrom (m.contentsPath .root)))
      else Keyed.insert Path.root.text m.rule
        (Keyed.ofList (m.contents.visits.map (Visit.entryFrom (m.contentsPath .root)))) := by
  have first := Keyed.ofList_append_cons []
    (m.contents.visits.map (Visit.entryFrom (m.contentsPath .root))) (Path.root.text, m.rule)
  rw [entries_fixture, entries_visits]
  exact first

/-! ## Repetitions -/

/-- Two entries with one rule, whose paths differ in how they begin. -/
inductive Moved (front front' : String) : String × Rule → String × Rule → Prop
  | mk (rest : String) (rule : Rule) :
      Moved front front' (front ++ rest, rule) (front' ++ rest, rule)

theorem moved_under (front front' : String) (entries : List (String × Rule)) :
    List.Forall₂ (Moved front front') (Keyed.under front entries) (Keyed.under front' entries) := by
  rw [Keyed.under, Keyed.under, List.forall₂_map_left_iff, List.forall₂_map_right_iff,
    List.forall₂_same]
  exact fun e _ => .mk e.1 e.2

theorem root_lt_items (rest : String) : Path.root.text < Path.root.items.text ++ rest := by
  have items : Path.root.items.text ++ rest = Path.root.text ++ ("[*]" ++ rest) := by
    rw [← String.append_assoc]
    rfl
  have longer : Path.root.text ++ "" < Path.root.text ++ ("[*]" ++ rest) := by
    rw [Keyed.append_lt_append_iff, String.lt_iff, String.toList_append]
    exact List.nil_lt_cons ..
  rwa [items]

theorem insert_root (rule : Rule) (entries : List (String × Rule)) :
    Keyed.insert Path.root.text rule (Keyed.under Path.root.items.text entries) =
      (Path.root.text, rule) :: Keyed.under Path.root.items.text entries := by
  cases entries with
  | nil => rfl
  | cons e rest =>
    rw [Keyed.under, List.map_cons, Keyed.insert, if_pos (root_lt_items e.1)]

theorem repetition_rules (contents : Template) (min max : UInt64) :
    ∃ below, (Template.each contents min max).fixture.rules.entries =
        (Path.root.text, repetitionRule min max) :: below ∧
      List.Forall₂ (Moved Path.root.text Path.root.items.text) contents.fixture.rules.entries
        below := by
  have rules := entries_fixture_eq (.each contents min max)
  rw [Matcher.contents, contentsPath, entries_under, Keyed.ofList_under] at rules
  have free : Path.root.text ∉
      (Keyed.under Path.root.items.text (contents.visits.map Visit.tail)).map (·.1) := by
    intro member
    rw [Keyed.under, List.map_map, List.mem_map] at member
    obtain ⟨e, -, same⟩ := member
    have less := root_lt_items e.1
    rw [← same] at less
    exact String.lt_irrefl _ less
  rw [if_neg free, insert_root] at rules
  refine ⟨_, rules, ?_⟩
  rw [entries_fixture_under]
  exact moved_under _ _ _

/-! ## Other matchers -/

theorem other_rules {m : Matcher} (h : m.repetitions? = none) :
    m.toTemplate.fixture.rules =
      if (m.contents.fixture.rules.get? Path.root.text).isSome then m.contents.fixture.rules
      else m.contents.fixture.rules.insert Path.root.text m.rule := by
  have path : m.contentsPath .root = .root := by
    cases m with
    | each => cases h
    | _ => rfl
  have own := entries_fixture_eq m
  rw [path] at own
  have taken : (m.contents.fixture.rules.get? Path.root.text).isSome ↔
      Path.root.text ∈ (m.contents.visits.map (Visit.entryFrom .root)).map (·.1) := by
    rw [RuleTable.get?, entries_fixture, Keyed.isSome_get?_iff, Keyed.mem_keys_ofList]
  apply RuleTable.ext
  rw [own, ← entries_fixture]
  split
  · rename_i h
    rw [if_pos (taken.mpr h)]
  · rename_i h
    rw [if_neg (mt taken.mp h)]
    rfl

theorem isSome_rule_root (m : Matcher) :
    (m.toTemplate.fixture.rules.get? Path.root.text).isSome := by
  rw [RuleTable.get?, entries_fixture, Keyed.isSome_get?_iff, Keyed.mem_keys_ofList, entries_visits]
  exact List.mem_cons_self ..

theorem body_eq (m : Matcher) :
    m.toTemplate.fixture.body = match m.repetitions? with
      | some count => .arr (List.replicate count.toNat m.contents.fixture.body)
      | none => m.contents.fixture.body := by
  cases m <;> simp [body_fixture, toTemplate, Matcher.contents, repetitions?, ofString]

end Matcher

/-- The fixture of a matcher is told by that of what it wraps. Its body is the example as which the
matcher is written. -/
theorem Matcher.fixture_from_contents (m : Matcher) :
    (m.toTemplate.fixture.body = m.document ∧ m.toJson = m.document) ∧
    (∀ count, m.repetitions? = some count →
      m.toTemplate.fixture.body = .arr (List.replicate count.toNat m.contents.fixture.body) ∧
      ∃ below, m.toTemplate.fixture.rules.entries = (Path.root.text, m.rule) :: below ∧
        List.Forall₂ (Moved Path.root.text Path.root.items.text) m.contents.fixture.rules.entries
          below) ∧
    (m.repetitions? = none →
      m.toTemplate.fixture.body = m.contents.fixture.body ∧
      m.toTemplate.fixture.rules =
        if (m.contents.fixture.rules.get? Path.root.text).isSome then m.contents.fixture.rules
        else m.contents.fixture.rules.insert Path.root.text m.rule) ∧
    (Matcher.like m.toTemplate).toTemplate.fixture = m.toTemplate.fixture := by
  refine ⟨⟨body_fixture _, rfl⟩, fun count repeated => ?_, fun single => ?_, ?_⟩
  · cases m with
    | each contents min max =>
      obtain rfl := Option.some.inj repeated
      exact ⟨body_eq (.each contents min max), repetition_rules contents min max⟩
    | _ => cases repeated
  · have body := body_eq m
    rw [single] at body
    exact ⟨body, other_rules single⟩
  · -- A matcher has a rule at the root, so nothing is added around it.
    have rules := (other_rules (m := .like m.toTemplate) rfl).trans (if_pos (isSome_rule_root m))
    have body := body_eq (.like m.toTemplate)
    rw [Fixture.mk.injEq]
    exact ⟨body, rules⟩

theorem Matcher.fixture_of_nested_lists :
    ((Template.each (.each (ofString "x") 1 0) 2 0).fixture.body =
        .arr (List.replicate 2 (Template.each (ofString "x") 1 0).fixture.body) ∧
      ∃ below, (Template.each (.each (ofString "x") 1 0) 2 0).fixture.rules.entries =
          ("$.body", Rule.byType.withMin 2) :: below ∧
        List.Forall₂ (Moved "$.body" "$.body[*]")
          (Template.each (ofString "x") 1 0).fixture.rules.entries below) ∧
    (Template.object [("id", .rawText "x")]).fixture.rules =
      (map [("id", .rawText "x")]).fixture.rules.insert "$.body" .byType := by
  have lists := (fixture_from_contents (.each (.each (ofString "x") 1 0) 2 0)).2.1 2 rfl
  have fields := ((fixture_from_contents (.object [("id", .rawText "x")])).2.2.1 rfl).2
  have free : ¬ ((map [("id", .rawText "x")]).fixture.rules.get? "$.body").isSome = true := by
    decide
  exact ⟨lists, fields.trans (if_neg free)⟩

end ContractFixture
