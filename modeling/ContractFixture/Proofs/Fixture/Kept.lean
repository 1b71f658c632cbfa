import ContractFixture.Proofs.Fixture.Addressing
import ContractFixture.Proofs.Template.Matcher

/-! # A body keeps its rules -/

namespace ContractFixture.Template

open ContractFixture.Path (PlainName)

/-- A value keeps the bounds of a rule as a list of equal items, and its pattern as the sample
beside it. -/
structure Keeps (t : Template) (rule : Rule) (value : Json) : Prop where
  min : ∀ bound, rule.min = some bound → value.IsUniform bound.toNat
  max : ∀ bound, rule.max = some bound →
    ∃ count, 1 ≤ count ∧ count ≤ bound.toNat ∧ value.IsUniform count
  pattern : ∀ form, rule.pattern = some form →
    ∃ visit ∈ t.visits, ∃ sample, visit.matcher = .pattern sample form ∧ value = .str sample

theorem keeps_own_rule {t : Template} {visit : Visit} (member : visit ∈ t.visits) :
    t.Keeps visit.rule visit.matcher.document where
  min bound bounded := by
    obtain ⟨contents, same⟩ := Matcher.min_rule_eq_some bounded
    refine ⟨contents.document, ?_⟩
    rw [same]
    show (each contents bound 0).document = _
    rw [document_each, Matcher.repetitions_zero]
  max bound bounded := by
    obtain ⟨positive, contents, min, same⟩ := Matcher.max_rule_eq_some bounded
    have bounds : 1 ≤ (Matcher.repetitions min bound).toNat ∧ _ ≤ bound.toNat :=
      Matcher.repetitions_bounded positive
    rw [same]
    exact ⟨_, bounds.1, bounds.2, contents.document, document_each contents min bound⟩
  pattern form formed := by
    obtain ⟨sample, same⟩ := Matcher.pattern_rule_eq_some formed
    refine ⟨visit, member, sample, same, ?_⟩
    rw [same]
    exact document_pattern sample form

/-- What the path of a matcher addresses are the copies of its example. -/
theorem addresses_visit_iff {t : Template} (h : t.WellFormed)
    (plain : ∀ key ∈ t.keys, PlainName key) {visit : Visit} (member : visit ∈ t.visits)
    (noList : ∀ items, .list items ∉ visit.around) {value : Json} :
    t.document.Addresses visit.path.text value ↔
      copies visit.around ≠ 0 ∧ value = visit.matcher.document := by
  have placed := mem_visits_iff_place.mp member
  have here : t.document.addressed visit.steps =
      List.replicate (copies visit.around) visit.matcher.document :=
    addressed_place h placed noList
  rw [← List.mem_replicate, ← here]
  constructor
  · rintro ⟨steps, text, leads⟩
    have texts : Path.stepsText steps = Path.stepsText visit.steps :=
      Path.follow_eq_iff.mp (Path.mk.injEq .. ▸ text)
    obtain rfl : steps = visit.steps := steps_of_addressed h plain placed noList leads texts
    exact leads
  · exact fun leads => ⟨visit.steps, rfl, leads⟩

def NoListedMatcher (t : Template) : Prop :=
  ∀ visit ∈ t.visits, ∀ items, .list items ∉ visit.around

/-- Where no matcher stands below a list of the template itself and no key holds path syntax, every
value at the path of a rule keeps that rule. -/
theorem body_keeps_rules {t : Template} (h : t.WellFormed) (noList : t.NoListedMatcher)
    (plain : ∀ key ∈ t.keys, '.' ∉ key.toList ∧ '[' ∉ key.toList) {path : String} {rule : Rule}
    (found : t.fixture.rules.get? path = some rule) :
    (∀ value, t.fixture.body.Addresses path value → t.Keeps rule value) ∧
      ∀ visit ∈ t.visits, visit.path.text = path →
        ((∃ value, t.fixture.body.Addresses path value) ↔
          ∀ contents min max, .each contents min max ∈ visit.around →
            Matcher.repetitions min max ≠ 0) := by
  have plainNames : ∀ key ∈ t.keys, PlainName key :=
    fun key isKey => .of_no_bracket (plain key isKey).1 (plain key isKey).2
  rw [body_fixture]
  constructor
  · intro value addressed
    obtain ⟨visit, member, rfl, rfl⟩ := exists_visit_of_get? found
    obtain ⟨-, rfl⟩ := (addresses_visit_iff h plainNames member (noList visit member)).mp addressed
    exact keeps_own_rule member
  · rintro visit member rfl
    simp only [addresses_visit_iff h plainNames member (noList visit member)]
    rw [← copies_ne_zero_iff]
    simp

def names : Template :=
  .map [("names", .like (.each (.pattern "ann" "[a-z]+") 0 3))]

theorem names_keep_rules :
    (∀ value, names.fixture.body.Addresses "$.body.names[*]" value →
      names.Keeps (.byPattern "[a-z]+") value) ∧
      ∃ value, names.fixture.body.Addresses "$.body.names[*]" value := by
  have visited : names.visits =
      [⟨[names], [.member "names"], .like (.each (.pattern "ann" "[a-z]+") 0 3)⟩,
        ⟨[names, .like (.each (.pattern "ann" "[a-z]+") 0 3)], [.member "names"],
          .each (.pattern "ann" "[a-z]+") 0 3⟩,
        ⟨[names, .like (.each (.pattern "ann" "[a-z]+") 0 3), .each (.pattern "ann" "[a-z]+") 0 3],
          [.member "names", .items], .pattern "ann" "[a-z]+"⟩] := rfl
  have wellFormed : names.WellFormed := by
    simp [names, WellFormed, WellFormedEntries, Keyed.Sorted]
  have noList : names.NoListedMatcher := by
    rw [NoListedMatcher, visited]
    simp [names]
  have plain : ∀ key ∈ names.keys, '.' ∉ key.toList ∧ '[' ∉ key.toList := by
    have keys : names.keys = ["names"] := rfl
    simp [keys]
  have found : names.fixture.rules.get? "$.body.names[*]" = some (.byPattern "[a-z]+") := by
    decide +kernel
  have kept := body_keeps_rules wellFormed noList plain found
  obtain ⟨name, member, here, makes⟩ : ∃ name ∈ names.visits,
      name.path.text = "$.body.names[*]" ∧ copies name.around ≠ 0 := by
    rw [visited]
    exact ⟨_, List.mem_cons_of_mem _ (List.mem_cons_of_mem _ (List.mem_cons_self ..)), rfl,
      by decide +kernel⟩
  exact ⟨kept.1, (kept.2 name member here).mpr (copies_ne_zero_iff.mp makes)⟩

end ContractFixture.Template
