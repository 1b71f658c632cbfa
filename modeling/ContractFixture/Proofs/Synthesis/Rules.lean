import ContractFixture.Proofs.Fixture.OneRule
import ContractFixture.Proofs.Synthesis.Made
import ContractFixture.Proofs.Template.Matcher

/-! # One rule for each position of a message -/

namespace ContractFixture

namespace Synthesis

variable {d : Defaults} {note : Option String} {s : Schema} {t : Template}

/-! ## The rules of a schema -/

/-- The rule for a string: its pattern, if the annotation gives one. -/
def stringRule (hint : Hint) : Rule :=
  match hint.pattern with
  | some form => .byPattern form
  | none => .byType

mutual

/-- The rules for a schema at `path`, a node before what stands below it. A pointer has no rule of
its own. -/
def rulesAt (d : Defaults) (note : Option String) (path : Path) :
    Schema → List (String × Rule)
  | .pointer target => rulesAt d note path target
  | .sequence element =>
    (path.text, Rule.byType.withMin (exampleLength d (.sequence element) note)) ::
      rulesAt d none path.items element
  | .array element length =>
    (path.text, Rule.byType.withMin (exampleLength d (.array element length) note)) ::
      rulesAt d none path.items element
  | .record _ fields => (path.text, .byType) :: fieldRules d path fields
  | .string => [(path.text, stringRule (Schema.string.said note))]
  | .boolean | .integer _ | .float _ => [(path.text, .byType)]
  | .map _ | .any | .foreign _ => []

/-- The rules below a record at `path`. Of several fields with one key the last counts. -/
def fieldRules (d : Defaults) (path : Path) : List (Field Schema) → List (String × Rule)
  | [] => []
  | ⟨name, wireName, type, hint⟩ :: rest =>
    if wireName.getD name ∈ rest.map Field.key then fieldRules d path rest
    else rulesAt d hint (path.member (wireName.getD name)) type ++ fieldRules d path rest

end

theorem fieldRules_cons (path : Path) (f : Field Schema) (rest : List (Field Schema)) :
    fieldRules d path (f :: rest) =
      if f.key ∈ rest.map Field.key then fieldRules d path rest
      else rulesAt d f.hint (path.member f.key) f.type ++ fieldRules d path rest := by
  rw [fieldRules]
  rfl

/-! ## Leaves -/

/-- The template has one rule, at its own place, and no keys. -/
structure Leaf (t : Template) (rule : Rule) : Prop where
  entries : ∀ path, t.visits.map (Template.Visit.entryFrom path) = [(path.text, rule)]
  unshared : t.Unshared
  keys : t.keys = []

theorem leaf_likeJson {value : Json} (canonical : value.IsCanonical) :
    Leaf (likeJson value) .byType where
  entries _ := rfl
  unshared := Template.unshared_like rfl (Template.unshared_literal canonical)
  keys := rfl

theorem leaf_pattern (sample form : String) : Leaf (.pattern sample form) (.byPattern form) where
  entries _ := rfl
  unshared := Template.unshared_pattern sample form
  keys := rfl

theorem leaf_string (hint : Hint) : Leaf (stringTemplate d hint) (stringRule hint) := by
  unfold stringTemplate stringRule
  cases hint.pattern with
  | some form => exact leaf_pattern _ form
  | none => exact leaf_likeJson trivial

theorem leaf_boolean (hint : Hint) : Leaf (booleanTemplate d hint) .byType := by
  unfold booleanTemplate
  split <;> exact leaf_likeJson trivial

theorem leaf_integer {hint : Hint} {path : String} {width : IntegerWidth}
    (h : integerTemplate d hint path width = .ok t) : Leaf t .byType := by
  obtain ⟨n, rfl, -⟩ := integerTemplate_eq_ok h
  exact leaf_likeJson trivial

theorem leaf_float (hint : Hint) : Leaf (floatTemplate d hint) .byType := by
  unfold floatTemplate
  split <;> exact leaf_likeJson (Json.isCanonical_ofFloat _)

/-! ## The rules of the template -/

theorem entries_lasts_perm {path : Path} {fields : List (Field Schema)}
    {template : Field Schema → Template}
    (each : ∀ f ∈ fields, ∀ path, ((template f).visits.map (Template.Visit.entryFrom path)).Perm
      (rulesAt d f.hint path f.type)) :
    ((Keyed.lasts (fields.map fun f => (f.key, template f))).flatMap fun e =>
        e.2.visits.map (Template.Visit.entryFrom (path.member e.1))).Perm
      (fieldRules d path fields) := by
  induction fields with
  | nil => exact List.Perm.refl []
  | cons f rest ih =>
    obtain ⟨first, others⟩ := List.forall_mem_cons.mp each
    have keys : (rest.map fun f => (f.key, template f)).map (·.1) = rest.map Field.key := by
      rw [List.map_map]
      rfl
    rw [List.map_cons, Keyed.lasts, keys, fieldRules_cons]
    split
    · exact ih others
    · exact (first _).append (ih others)

theorem Made.entries_perm (made : Made d note s t) (path : Path) :
    (t.visits.map (Template.Visit.entryFrom path)).Perm (rulesAt d note path s) := by
  induction made generalizing path with
  | pointer _ ih =>
    rw [rulesAt]
    exact ih path
  | sequence _ ih | array _ ih =>
    rw [Template.entries_visits_each, Matcher.repetitionRule_zero, rulesAt]
    exact (ih path.items).cons _
  | record _ ih =>
    -- The object has its fields in key order, the rules are in the order of the record.
    rw [Template.entries_visits_object, rulesAt]
    refine List.Perm.cons _ (.trans ?_ (entries_lasts_perm ih))
    exact (Keyed.perm_lasts_ofList _).flatMap_right _
  | string => rw [(leaf_string _).entries, rulesAt]
  | boolean => rw [(leaf_boolean _).entries, rulesAt]
  | integer made => rw [(leaf_integer made).entries, rulesAt]
  | float => rw [(leaf_float _).entries, rulesAt]

/-! ## Paths of their own -/

theorem Made.unshared (made : Made d note s t) : t.Unshared := by
  induction made with
  | pointer _ ih => exact ih
  | sequence _ ih | array _ ih => exact Template.unshared_each ih _ 0
  | record _ ih =>
    refine Template.unshared_object (Template.unshared_map (Keyed.sorted_ofList _) ?_)
    intro e member
    obtain ⟨f, isField, rfl⟩ := List.mem_map.mp (Keyed.mem_of_mem_ofList member)
    exact ih f isField
  | string => exact (leaf_string _).unshared
  | boolean => exact (leaf_boolean _).unshared
  | integer made => exact (leaf_integer made).unshared
  | float => exact (leaf_float _).unshared

theorem Made.key_of_field (made : Made d note s t) {key : String} (isKey : key ∈ t.keys) :
    ∃ p ∈ s.positionsFrom note, key ∈ p.node.ownKeys := by
  induction made with
  | pointer _ ih =>
    obtain ⟨p, member, own⟩ := ih isKey
    rw [Schema.positionsFrom]
    exact ⟨p, List.mem_cons_of_mem _ member, own⟩
  | sequence _ ih | array _ ih =>
    obtain ⟨p, member, own⟩ := ih (Template.mem_keys_each.mp isKey)
    rw [Schema.positionsFrom]
    exact ⟨p.under .element, List.mem_cons_of_mem _ (List.mem_map_of_mem member), own⟩
  | record _ ih =>
    rw [Schema.positionsFrom]
    rcases Template.mem_keys.mp isKey with own | ⟨c, isChild, below⟩
    · have own := Keyed.mem_keys_ofList.mp own
      rw [List.map_map] at own
      exact ⟨_, List.mem_cons_self .., own⟩
    · obtain ⟨e, isEntry, rfl⟩ := List.mem_map.mp isChild
      obtain ⟨f, isField, rfl⟩ := List.mem_map.mp (Keyed.mem_of_mem_ofList isEntry)
      obtain ⟨p, member, own⟩ := ih f isField below
      have inside := Schema.mem_fieldPositions.mpr ⟨f, isField, p, member, rfl⟩
      exact ⟨p.under (.field f.name), List.mem_cons_of_mem _ inside, own⟩
  | string => simp [(leaf_string _).keys] at isKey
  | boolean => simp [(leaf_boolean _).keys] at isKey
  | integer made => simp [(leaf_integer made).keys] at isKey
  | float => simp [(leaf_float _).keys] at isKey

end Synthesis

/-! ## No collision -/

theorem SynthesisEvent.no_collision_message (event : SynthesisEvent) :
    ¬ event.toRecord.HasMessage collisionMessage := by
  cases event <;> simp [LogRecord.HasMessage, toRecord, LogRecord.event, collisionMessage]

open Synthesis

/-- If the keys of a message type are plain, the rules of its fixture are those of its positions,
and each position has a path of its own. -/
theorem Schema.one_rule_for_each_position {s : Schema} {d : Defaults} {fixture : Fixture}
    (plain : ∀ key ∈ s.keys, '.' ∉ key.toList ∧ '[' ∉ key.toList)
    (made : s.fixture d = .ok fixture) :
    fixture.rules.entries.Perm (rulesAt d none .root s) ∧
      ((rulesAt d none .root s).map (·.1)).Nodup ∧
      ∀ record ∈ s.fixtureLog d, ¬ record.HasMessage collisionMessage := by
  obtain ⟨t, template, rfl⟩ := map_eq_ok made
  have made := made_of_template template
  have plainNames : ∀ key ∈ t.keys, Path.PlainName key := by
    intro key isKey
    obtain ⟨p, member, own⟩ := made.key_of_field isKey
    obtain ⟨no_point, no_bracket⟩ := plain key (List.mem_flatMap.mpr ⟨p, member, own⟩)
    exact .of_no_bracket no_point no_bracket
  have each : t.OneRuleEach :=
    Template.oneRuleEach_iff_nodup.mpr (made.unshared.nodup_paths plainNames)
  have rules := each.entries_perm.trans (made.entries_perm .root)
  have once := Keyed.nodup_keys_of_sorted t.fixture.rules.sorted
  refine ⟨rules, (rules.map _).nodup_iff.mp once, fun record member told => ?_⟩
  rw [Schema.fixtureLog, template, List.mem_append] at member
  rcases member with member | member
  · obtain ⟨event, -, rfl⟩ := List.mem_map.mp member
    exact event.no_collision_message told
  · obtain ⟨event, built, rfl⟩ := List.mem_map.mp member
    have quiet := each.no_collision event built
    rw [BuildEvent.hasMessage_toRecord_iff.mp told] at quiet
    cases quiet

def Schema.shelf : Schema :=
  .record "Shelf" [⟨"rows", none, .pointer (.sequence (.array .boolean 3)), some "min=0"⟩,
    ⟨"mark", none, .record "Mark" [], none⟩,
    ⟨"label", some "mark", .string, some "example=a1,regex=^[a-z][0-9]"⟩]

theorem Schema.shelf_rules :
    (∀ key ∈ Schema.shelf.keys, '.' ∉ key.toList ∧ '[' ∉ key.toList) ∧
      ∃ fixture, Schema.shelf.fixture {} = .ok fixture ∧
        fixture.rules.entries.Perm
          [("$.body", .byType), ("$.body.rows", Rule.byType.withMin 0),
            ("$.body.rows[*]", Rule.byType.withMin 1), ("$.body.rows[*][*]", .byType),
            ("$.body.mark", .byPattern "^[a-z][0-9]")] ∧
        ∀ record ∈ Schema.shelf.fixtureLog {}, ¬ record.HasMessage collisionMessage := by
  have plain : ∀ key ∈ Schema.shelf.keys, '.' ∉ key.toList ∧ '[' ∉ key.toList := by
    decide +kernel
  obtain ⟨fixture, made⟩ := eq_ok_of_isSome (o := Schema.shelf.fixture {}) (by decide +kernel)
  obtain ⟨rules, -, quiet⟩ := Schema.one_rule_for_each_position plain made
  exact ⟨plain, fixture, made, rules.trans (.of_eq (by decide +kernel)), quiet⟩

end ContractFixture
