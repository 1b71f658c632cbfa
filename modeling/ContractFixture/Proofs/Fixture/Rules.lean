import ContractFixture.Proofs.Fixture.Recording
import ContractFixture.Proofs.Rule.Table

/-! # The rules of a fixture -/

namespace ContractFixture

def Template.Visit.entryFrom (path : Path) (visit : Template.Visit) : String × Rule :=
  ((visit.pathFrom path).text, visit.rule)

@[simp] theorem Template.Visit.entryFrom_under (path : Path) (parent : Template)
    (steps : List Path.Step) (visit : Visit) :
    (visit.under parent steps).entryFrom path = visit.entryFrom (path.follow steps) := by
  rw [entryFrom, pathFrom_under]
  rfl

theorem Recorder.entries_storeAll {r : Recorder} (h : r.recording = true) (path : Path)
    (visits : List Template.Visit) :
    (r.storeAll path visits).rules.entries =
      Keyed.insertAll (visits.map (Template.Visit.entryFrom path)) r.rules.entries := by
  induction visits generalizing r with
  | nil => rfl
  | cons visit rest ih =>
    rw [storeAll_cons, ih ((recording_store ..).trans h), rules_store h]
    rfl

namespace Template

theorem entries_visits_eq (path : Path) (t : Template) :
    t.visits.map (Visit.entryFrom path) =
      (Place.here t).visit?.toList.map (Visit.entryFrom path) ++
        t.children.flatMap fun c => (visits c.2).map (Visit.entryFrom (path.follow c.1)) := by
  rw [visits_eq, List.map_append, List.map_flatMap]
  simp only [List.map_map, Function.comp_def, Visit.entryFrom_under]

theorem entries_visits_each (path : Path) (contents : Template) (min max : UInt64) :
    (each contents min max).visits.map (Visit.entryFrom path) =
      (path.text, Matcher.repetitionRule min max) ::
        contents.visits.map (Visit.entryFrom path.items) := by
  rw [entries_visits_eq, children, List.flatMap_singleton]
  rfl

theorem entries_visits_object (path : Path) (fields : List (String × Template)) :
    (object fields).visits.map (Visit.entryFrom path) =
      (path.text, .byType) ::
        fields.flatMap fun e => e.2.visits.map (Visit.entryFrom (path.member e.1)) := by
  rw [entries_visits_eq, children, List.flatMap_map]
  rfl

theorem rules_fixture_eq (t : Template) :
    t.fixture.rules = .ofList (t.visits.map (Visit.entryFrom .root)) := by
  apply RuleTable.ext
  rw [rules_fixture]
  exact Recorder.entries_storeAll rfl .root t.visits

theorem get?_rules_fixture (t : Template) (path : String) :
    t.fixture.rules.get? path =
      (t.visits.filter (·.path.text = path)).getLast?.map Visit.rule := by
  rw [rules_fixture_eq, RuleTable.get?_ofList, List.filter_map, List.getLast?_map, Option.map_map]
  rfl

theorem exists_visit_of_get? {t : Template} {path : String} {rule : Rule}
    (h : t.fixture.rules.get? path = some rule) :
    ∃ visit ∈ t.visits, visit.path.text = path ∧ visit.rule = rule := by
  rw [get?_rules_fixture] at h
  obtain ⟨visit, last, rfl⟩ := Option.map_eq_some_iff.mp h
  have member := List.mem_of_getLast? last
  rw [List.mem_filter, decide_eq_true_eq] at member
  exact ⟨visit, member.1, member.2, rfl⟩

theorem isSome_get?_path {t : Template} {visit : Visit} (h : visit ∈ t.visits) :
    (t.fixture.rules.get? visit.path.text).isSome := by
  rw [get?_rules_fixture, Option.isSome_map, List.getLast?_isSome]
  exact List.ne_nil_of_mem (List.mem_filter.mpr ⟨h, decide_eq_true rfl⟩)

/-- The table has the paths at which the walk meets a matcher, and no other. At each stands the rule
of the last matcher that the walk meets there. -/
theorem rules_at_last_visit (t : Template) (path : String) :
    (path ∈ t.fixture.rules.paths ↔ ∃ visit ∈ t.visits, visit.path.text = path) ∧
      t.fixture.rules.get? path =
        (t.visits.filter (·.path.text = path)).getLast?.map Visit.rule := by
  refine ⟨?_, get?_rules_fixture t path⟩
  rw [RuleTable.mem_paths_iff]
  constructor
  · intro found
    obtain ⟨rule, h⟩ := Option.isSome_iff_exists.mp found
    obtain ⟨visit, member, here, -⟩ := exists_visit_of_get? h
    exact ⟨visit, member, here⟩
  · rintro ⟨visit, member, rfl⟩
    exact isSome_get?_path member

end Template

end ContractFixture
