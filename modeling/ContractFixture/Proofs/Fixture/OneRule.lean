import ContractFixture.Proofs.Fixture.Collisions
import ContractFixture.Proofs.Fixture.Rules
import ContractFixture.Proofs.Path.Text
import ContractFixture.Proofs.Template.Unshared
import Mathlib.Data.List.Nodup

/-!
# One rule for each matcher

Matchers that share no place have different steps, but a fixture keeps their rules by the text of
the steps, and a key goes into that text as it stands.
-/

namespace ContractFixture.Template

open ContractFixture.Path (stepsText PlainName)

/-- The table has as many rules as the template has matchers, and the rule of each is found at its
path. -/
def OneRuleEach (t : Template) : Prop :=
  t.fixture.rules.size = t.visits.length ∧
    ∀ visit ∈ t.visits, t.fixture.rules.get? visit.path.text = some visit.rule

theorem nodup_texts_iff {t : Template} :
    ((t.visits.map (Visit.entryFrom .root)).map (·.1)).Nodup ↔ (t.visits.map (·.path)).Nodup := by
  have texts : (t.visits.map (Visit.entryFrom .root)).map (·.1) =
      (t.visits.map (·.path)).map Path.text := by
    rw [List.map_map, List.map_map]
    rfl
  have inj : Function.Injective Path.text := fun _ _ same => Path.mk.injEq .. ▸ same
  rw [texts, List.nodup_map_iff inj]

theorem size_rules_iff {t : Template} :
    t.fixture.rules.size = t.visits.length ↔ (t.visits.map (·.path)).Nodup := by
  have size : t.fixture.rules.size =
      (Keyed.ofList (t.visits.map (Visit.entryFrom .root))).length := by
    rw [rules_fixture_eq]
    rfl
  rw [size, ← List.length_map (Visit.entryFrom .root), Keyed.length_ofList_iff, nodup_texts_iff]

theorem oneRuleEach_iff_nodup {t : Template} :
    t.OneRuleEach ↔ (t.visits.map (·.path)).Nodup := by
  rw [OneRuleEach, size_rules_iff]
  constructor
  · exact And.left
  · intro different
    refine ⟨different, fun visit member => ?_⟩
    obtain ⟨rule, found⟩ := Option.isSome_iff_exists.mp (isSome_get?_path member)
    obtain ⟨other, isVisit, text, rfl⟩ := exists_visit_of_get? found
    have same : other.path = visit.path := Path.mk.injEq .. ▸ text
    rw [found, List.inj_on_of_nodup_map different isVisit member same]

namespace OneRuleEach

variable {t : Template}

theorem entries_perm (h : t.OneRuleEach) :
    t.fixture.rules.entries.Perm (t.visits.map (Visit.entryFrom .root)) := by
  have once := nodup_texts_iff.mpr (oneRuleEach_iff_nodup.mp h)
  have stay := Keyed.perm_lasts_ofList (t.visits.map (Visit.entryFrom .root))
  rw [Keyed.lasts_of_nodup once] at stay
  rw [rules_fixture_eq]
  exact stay

theorem no_collision (h : t.OneRuleEach) : ∀ event ∈ t.buildLog, event.isCollision = false :=
  (no_collision_event_iff t).mpr h.2

end OneRuleEach

/-! ## Plain keys -/

theorem Unshared.nodup_paths {t : Template} (h : t.Unshared)
    (plain : ∀ key ∈ t.keys, PlainName key) : (t.visits.map (·.path)).Nodup := by
  have plainNames : ∀ v ∈ t.visits, ∀ name, .member name ∈ v.steps → PlainName name :=
    fun v isVisit name inside =>
      plain name (name_mem_keys (mem_visits_iff_place.mp isVisit) inside)
  rw [List.Nodup, List.pairwise_map]
  refine h.steps_differ.imp_of_mem fun isVisit isVisit' differ same => differ ?_
  exact Path.steps_eq_of_text_eq (plainNames _ isVisit) (plainNames _ isVisit')
    (Path.follow_eq_iff.mp same)

/-! ## Keys that are not plain -/

def beside (first : String) (contents : Template) (second : String) : Template :=
  .map [(first, contents), (second, .rawText "")]

theorem unshared_beside {first second : String} (less : first < second) {contents : Template}
    (h : contents.Unshared) : (beside first contents second).Unshared := by
  apply unshared_map
  · simpa [Keyed.Sorted] using less
  · simpa using ⟨h, unshared_rawText ""⟩

theorem visit_of_rawText_child {t : Template} {steps : List Path.Step} {text : String}
    (isChild : (steps, .rawText text) ∈ t.children) : ⟨[t], steps, .rawText text⟩ ∈ t.visits := by
  have below : ⟨[], [], .rawText text⟩ ∈ (rawText text).visits := List.mem_singleton_self _
  refine mem_visits.mpr (Or.inr ⟨_, isChild, _, below, ?_⟩)
  simp [Visit.under]

/-- If the second key looks like the way to a matcher at the first, one of the two rules is lost. -/
theorem beside_not_oneRuleEach {first second : String} (less : first < second) {contents : Template}
    {visit : Visit} (member : visit ∈ contents.visits)
    (text : stepsText (.member first :: visit.steps) = stepsText [.member second]) :
    ¬ (beside first contents second).OneRuleEach := by
  intro each
  have isVisit : visit.under (beside first contents second) [.member first] ∈
      (beside first contents second).visits :=
    mem_visits.mpr (Or.inr ⟨_, List.mem_cons_self .., visit, member, rfl⟩)
  have isVisit' : ⟨[beside first contents second], [.member second], .rawText ""⟩ ∈
      (beside first contents second).visits :=
    visit_of_rawText_child (List.mem_cons_of_mem _ (List.mem_cons_self ..))
  have same := List.inj_on_of_nodup_map (oneRuleEach_iff_nodup.mp each) isVisit isVisit'
    (Path.follow_eq_iff.mpr text)
  have steps := congrArg Visit.steps same
  obtain rfl := Path.Step.member.inj (List.cons.inj steps).1
  exact String.lt_irrefl _ less

theorem ofList_lt {key : String} {front rest : List Char} (h : key.toList = front ++ rest)
    (some : rest ≠ []) : String.ofList front < key := by
  rw [String.lt_iff, String.toList_ofList, h]
  clear h
  induction front with
  | nil =>
    obtain ⟨c, rest, rfl⟩ := List.exists_cons_of_ne_nil some
    exact List.nil_lt_cons c rest
  | cons c front ih => exact List.cons_lt_cons_self.mpr ih

theorem exists_not_oneRuleEach {key : String} (h : ¬ PlainName key) :
    ∃ t : Template, t.Unshared ∧ key ∈ t.keys ∧ ¬ t.OneRuleEach := by
  have isKey : ∀ first contents, key ∈ (beside first contents key).keys :=
    fun first contents => mem_keys.mpr (Or.inl (by simp [beside, ownKeys]))
  by_cases point : '.' ∈ key.toList
  · obtain ⟨front, back, split⟩ := List.append_of_mem point
    have less := ofList_lt split (by simp)
    have contents := unshared_member (String.ofList back) ""
    have member := visit_of_rawText_child
      (t := .map [(String.ofList back, .rawText "")]) (List.mem_singleton_self _)
    refine ⟨_, unshared_beside less contents, isKey _ _, ?_⟩
    exact beside_not_oneRuleEach less member (by simp [split])
  · have ending : ['[', '*', ']'] <:+ key.toList :=
      Decidable.byContradiction fun no => h ⟨point, no⟩
    obtain ⟨front, split⟩ := ending
    have less := ofList_lt split.symm (by simp)
    have contents := unshared_each (unshared_rawText "") 1 0
    have member := visit_of_rawText_child (t := .each (.rawText "") 1 0) (List.mem_singleton_self _)
    refine ⟨_, unshared_beside less contents, isKey _ _, ?_⟩
    exact beside_not_oneRuleEach less member (by simp [← split])

/-! ## The exact condition -/

/-- Matchers that share no place keep one rule each exactly if no two of them have one path. If all
keys are plain, they do. A key that is not plain stands in some template in which a rule is lost. -/
theorem one_rule_each_iff {t : Template} (h : t.Unshared) :
    (t.OneRuleEach ↔
        ∀ v ∈ t.visits, ∀ w ∈ t.visits, v.path = w.path → v.steps = w.steps) ∧
      ((∀ key ∈ t.keys, PlainName key) → t.OneRuleEach) ∧
      ∀ key, ¬ PlainName key → ∃ t' : Template, t'.Unshared ∧ key ∈ t'.keys ∧ ¬ t'.OneRuleEach := by
  have exact_condition : t.OneRuleEach ↔
      ∀ v ∈ t.visits, ∀ w ∈ t.visits, v.path = w.path → v.steps = w.steps := by
    rw [oneRuleEach_iff_nodup]
    constructor
    · intro different v isVisit w isVisit' same
      rw [List.inj_on_of_nodup_map different isVisit isVisit' same]
    · intro told
      rw [List.Nodup, List.pairwise_map]
      refine h.steps_differ.imp_of_mem fun isVisit isVisit' differ same => ?_
      exact differ (told _ isVisit _ isVisit' same)
  refine ⟨exact_condition, fun plain => ?_, fun key => exists_not_oneRuleEach⟩
  exact oneRuleEach_iff_nodup.mpr (h.nodup_paths plain)

theorem one_rule_each_apart :
    (beside "a" (.map [("b", .rawText "")]) "c").Unshared ∧
      (beside "a" (.map [("b", .rawText "")]) "c").OneRuleEach := by
  have unshared := unshared_beside (by decide +kernel : "a" < "c") (unshared_member "b" "")
  have plain : ∀ key ∈ (beside "a" (.map [("b", .rawText "")]) "c").keys, PlainName key := by
    have keys : (beside "a" (.map [("b", .rawText "")]) "c").keys = ["a", "c", "b"] := rfl
    rw [keys]
    intro key member
    apply PlainName.of_no_bracket
    · revert key
      decide +kernel
    · revert key
      decide +kernel
  exact ⟨unshared, (one_rule_each_iff unshared).2.1 plain⟩

theorem one_rule_for_two :
    (beside "a" (.map [("b", .rawText "")]) "a.b").Unshared ∧
      (beside "a" (.map [("b", .rawText "")]) "a.b").visits.length = 2 ∧
      (beside "a" (.map [("b", .rawText "")]) "a.b").fixture.rules.size = 1 := by
  refine ⟨?_, rfl, by decide +kernel⟩
  exact unshared_beside (by decide +kernel) (unshared_member "b" "")

end ContractFixture.Template
