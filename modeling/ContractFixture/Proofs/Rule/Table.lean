import ContractFixture.Proofs.Keyed
import ContractFixture.Rule.Table

/-! # What a rule table holds -/

namespace ContractFixture.RuleTable

theorem mem_paths_iff {table : RuleTable} {path : String} :
    path ∈ table.paths ↔ (table.get? path).isSome :=
  Keyed.isSome_get?_iff.symm

theorem get?_insert (table : RuleTable) (path other : String) (rule : Rule) :
    (table.insert path rule).get? other = if other = path then some rule else table.get? other :=
  Keyed.get?_insert path other rule table.entries

theorem get?_ofList (path : String) (entries : List (String × Rule)) :
    (ofList entries).get? path = (entries.filter (·.1 = path)).getLast?.map (·.2) :=
  Keyed.get?_ofList path entries

/-! ## Tables within tables -/

def Within (a b : RuleTable) : Prop :=
  ∀ path rule, a.get? path = some rule → b.get? path = some rule

theorem Within.refl (a : RuleTable) : a.Within a := fun _ _ h => h

/-- A rule that takes no other's place stands in `b` with all before it, exactly if those before it
do and it stands there too. -/
theorem insert_within_iff {a b : RuleTable} {path : String} {rule : Rule} :
    (∀ previous, a.get? path = some previous → previous = rule) ∧ (a.insert path rule).Within b ↔
      a.Within b ∧ b.get? path = some rule := by
  constructor
  · rintro ⟨same, within⟩
    have here : b.get? path = some rule := within path rule (a.get?_insert_self path rule)
    refine ⟨fun other found h => ?_, here⟩
    by_cases at_path : other = path
    · subst other
      rw [here, same found h]
    · exact within other found (by rw [get?_insert, if_neg at_path, h])
  · rintro ⟨within, here⟩
    refine ⟨fun previous h => ?_, fun other found h => ?_⟩
    · have stands := within path previous h
      rw [here] at stands
      exact (Option.some.inj stands).symm
    · rw [get?_insert] at h
      split at h
      · subst other
        rw [here, h]
      · exact within other found h

end ContractFixture.RuleTable
