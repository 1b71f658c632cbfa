import ContractFixture.Fixture.Wire
import ContractFixture.Proofs.Json.Written
import ContractFixture.Proofs.Rule.Wire

/-! # Fixtures survive their documents and texts -/

namespace ContractFixture

theorem Json.depth_obj_le {members : List (String × Json)} {n : Nat}
    (h : ∀ m ∈ members, m.2.depth ≤ n) : (obj members).depth ≤ n + 1 := by
  refine Nat.succ_le_succ ?_
  induction members with
  | nil => exact Nat.zero_le n
  | cons m rest ih =>
    obtain ⟨first, others⟩ := List.forall_mem_cons.mp h
    exact Nat.max_le.mpr ⟨first, ih others⟩

/-! ## The document of a rule -/

namespace Rule

theorem keys_ifSet_sublist {α : Type} (name : String) (toJson : α → Json) (value : Option α) :
    ((ifSet name toJson value).map (·.1)).Sublist [name] := by
  cases value with
  | none => exact List.nil_sublist _
  | some x => exact List.Sublist.refl _

theorem exists_of_mem_ifSet {α : Type} {name : String} {toJson : α → Json} {value : Option α}
    {m : String × Json} (h : m ∈ ifSet name toJson value) : ∃ x, m = (name, toJson x) := by
  cases value with
  | none => cases h
  | some x => exact ⟨x, List.mem_singleton.mp h⟩

theorem exists_members (rule : Rule) : ∃ members, rule.toJson = .obj members ∧
    Keyed.Sorted members ∧
    ∀ m ∈ members, (∃ text, m.2 = .str text) ∨ ∃ n : UInt64, m.2 = countJson n := by
  refine ⟨_, rfl, ?_, ?_⟩
  · have ordered : ["match", "max", "min", "regex"].Pairwise (· < ·) := by decide
    apply List.pairwise_map.mp (ordered.sublist _)
    simp only [List.map_append, List.map_cons]
    exact (((keys_ifSet_sublist "max" countJson rule.max).cons_cons "match").append
      (keys_ifSet_sublist "min" countJson rule.min)).append
      (keys_ifSet_sublist "regex" .str rule.pattern)
  · intro m member
    simp only [List.mem_append, List.mem_cons] at member
    obtain ((rfl | isMax) | isMin) | isPattern := member
    · exact Or.inl ⟨_, rfl⟩
    · obtain ⟨n, rfl⟩ := exists_of_mem_ifSet isMax
      exact Or.inr ⟨n, rfl⟩
    · obtain ⟨n, rfl⟩ := exists_of_mem_ifSet isMin
      exact Or.inr ⟨n, rfl⟩
    · obtain ⟨text, rfl⟩ := exists_of_mem_ifSet isPattern
      exact Or.inl ⟨text, rfl⟩

theorem isCanonical_toJson (rule : Rule) : rule.toJson.IsCanonical := by
  obtain ⟨members, same, sorted, each⟩ := rule.exists_members
  rw [same]
  refine Json.isCanonical_obj_iff.mpr ⟨sorted, fun m member => ?_⟩
  obtain ⟨text, leaf⟩ | ⟨n, leaf⟩ := each m member <;> rw [leaf] <;> trivial

theorem onlyWords_toJson (rule : Rule) : rule.toJson.OnlyWords := by
  obtain ⟨members, same, -, each⟩ := rule.exists_members
  rw [same]
  refine .obj fun m member => ?_
  obtain ⟨text, leaf⟩ | ⟨n, leaf⟩ := each m member
  · rw [leaf]
    exact .str
  · have bound : n.toNat < 2 ^ 64 := n.toNat_lt
    rw [leaf]
    exact .num ⟨by omega, by omega⟩

theorem depth_toJson_le (rule : Rule) : rule.toJson.depth ≤ 1 := by
  obtain ⟨members, same, -, each⟩ := rule.exists_members
  rw [same]
  refine Json.depth_obj_le fun m member => ?_
  obtain ⟨text, leaf⟩ | ⟨n, leaf⟩ := each m member <;> rw [leaf] <;> exact Nat.le_refl 0

end Rule

namespace RuleTable

theorem isCanonical_toJson (table : RuleTable) : table.toJson.IsCanonical := by
  refine Json.isCanonical_obj_iff.mpr ⟨table.sorted.map Rule.toJson, fun m member => ?_⟩
  obtain ⟨entry, -, rfl⟩ := List.mem_map.mp member
  exact entry.2.isCanonical_toJson

theorem onlyWords_toJson (table : RuleTable) : table.toJson.OnlyWords := by
  refine .obj fun m member => ?_
  obtain ⟨entry, -, rfl⟩ := List.mem_map.mp member
  exact entry.2.onlyWords_toJson

theorem depth_toJson_le (table : RuleTable) : table.toJson.depth ≤ 2 := by
  refine Json.depth_obj_le fun m member => ?_
  obtain ⟨entry, -, rfl⟩ := List.mem_map.mp member
  exact entry.2.depth_toJson_le

end RuleTable

/-! ## The document of a fixture -/

namespace Fixture

theorem ofJson_toJson (fixture : Fixture) : ofJson fixture.toJson = .ok fixture := by
  have rules := RuleTable.ofJson_toJson fixture.rules
  simp only [toJson, ofJson, List.foldlM_cons, List.foldlM_nil, Draft.add, Json.fill, rules]
  rfl

theorem isCanonical_toJson {fixture : Fixture} (canonical : fixture.body.IsCanonical) :
    fixture.toJson.IsCanonical := by
  have rules := fixture.rules.isCanonical_toJson
  have ordered : "body" < "matchingRules" := by decide
  rw [toJson, Json.isCanonical_obj_iff]
  refine ⟨List.pairwise_pair.mpr ordered, ?_⟩
  simp [canonical, rules]

theorem onlyWords_toJson {fixture : Fixture} (words : fixture.body.OnlyWords) :
    fixture.toJson.OnlyWords := by
  have rules := fixture.rules.onlyWords_toJson
  refine .obj ?_
  simp [words, rules]

theorem depth_toJson_le (fixture : Fixture) :
    fixture.toJson.depth ≤ max fixture.body.depth 2 + 1 := by
  have rules := fixture.rules.depth_toJson_le
  apply Json.depth_obj_le
  simp only [List.mem_cons, List.not_mem_nil, or_false, forall_eq_or_imp, forall_eq]
  omega

/-- A fixture is read back from its document, and from its text if its body has no numbers but
integers of 64 bits and nests at most 126 containers. -/
theorem ofJson_written (fixture : Fixture) :
    ofJson fixture.toJson = .ok fixture ∧
    (fixture.body.IsCanonical → fixture.body.OnlyWords → fixture.body.depth ≤ 126 →
      ∃ document, Json.parse fixture.pretty = .ok document ∧ ofJson document = .ok fixture) := by
  refine ⟨ofJson_toJson fixture, fun canonical words within => ?_⟩
  have deep := fixture.depth_toJson_le
  have written := Json.Grammar.value_prettyChars (onlyWords_toJson words) 0
  have read := (Json.parse_written written (isCanonical_toJson canonical)).1
    (by rw [Json.maxDepth]; omega)
  exact ⟨fixture.toJson, read, ofJson_toJson fixture⟩

theorem ofJson_written_list :
    let rules := RuleTable.empty.insert "$.body" (Rule.byType.withMin 2)
    ∃ document, Json.parse (Fixture.pretty ⟨.arr [.int (-1), .str "\\"], rules⟩) = .ok document ∧
      ofJson document = .ok ⟨.arr [.int (-1), .str "\\"], rules⟩ := by
  have canonical : (Json.arr [.int (-1), .str "\\"]).IsCanonical := ⟨trivial, trivial, trivial⟩
  have number : (Json.int (-1)).OnlyWords := .num ⟨by decide, by decide⟩
  have words : (Json.arr [.int (-1), .str "\\"]).OnlyWords :=
    .arr (List.forall_mem_cons.mpr ⟨number, List.forall_mem_singleton.mpr .str⟩)
  exact (ofJson_written ⟨_, _⟩).2 canonical words (by decide)

end Fixture

end ContractFixture
