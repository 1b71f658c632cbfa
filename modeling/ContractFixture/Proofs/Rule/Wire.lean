import ContractFixture.Proofs.Keyed
import ContractFixture.Proofs.Json.Decode
import ContractFixture.Rule.Wire

/-! # Rules survive their documents -/

namespace ContractFixture

open Json (Fills Tells)

theorem RuleKind.ofJson_name (kind : RuleKind) : RuleKind.ofJson (.str kind.name) = .ok kind := by
  cases kind <;> rfl

namespace Rule

structure Draft.Filled (draft : Draft) (members : List (String × Json)) (result : Draft) :
    Prop where
  kind : Fills (· = "match") RuleKind.ofJson draft.kind members result.kind
  min : Fills (· = "min") (Json.optional Json.count) draft.min members result.min
  max : Fills (· = "max") (Json.optional Json.count) draft.max members result.max
  pattern : Fills (· = "regex") (Json.optional Json.string) draft.pattern members result.pattern

theorem foldlM_add {draft result : Draft} {members : List (String × Json)}
    (h : draft.Filled members result) : members.foldlM Draft.add draft = .ok result := by
  induction members generalizing draft with
  | nil =>
    obtain ⟨kind, min, max, pattern⟩ := h
    cases draft
    cases result
    cases kind.eq_of_nil
    cases min.eq_of_nil
    cases max.eq_of_nil
    cases pattern.eq_of_nil
    rfl
  | cons m rest ih =>
    obtain ⟨key, value⟩ := m
    obtain ⟨kind, min, max, pattern⟩ := h
    suffices step : ∃ next, draft.add (key, value) = .ok next ∧ next.Filled rest result by
      obtain ⟨next, added, filled⟩ := step
      rw [List.foldlM_cons, added]
      exact ih filled
    simp only [Draft.add]
    split
    · obtain ⟨x, taken, kind⟩ := kind.take rfl "match"
      exact ⟨{ draft with kind := some x }, by rw [taken]; rfl, kind, min.skip (by decide),
        max.skip (by decide), pattern.skip (by decide)⟩
    · obtain ⟨x, taken, min⟩ := min.take rfl "min"
      exact ⟨{ draft with min := some x }, by rw [taken]; rfl, kind.skip (by decide), min,
        max.skip (by decide), pattern.skip (by decide)⟩
    · obtain ⟨x, taken, max⟩ := max.take rfl "max"
      exact ⟨{ draft with max := some x }, by rw [taken]; rfl, kind.skip (by decide),
        min.skip (by decide), max, pattern.skip (by decide)⟩
    · obtain ⟨x, taken, pattern⟩ := pattern.take rfl "regex"
      exact ⟨{ draft with pattern := some x }, by rw [taken]; rfl, kind.skip (by decide),
        min.skip (by decide), max.skip (by decide), pattern⟩
    · rename_i noKind noMin noMax noPattern
      exact ⟨draft, rfl, kind.skip noKind, min.skip noMin, max.skip noMax,
        pattern.skip noPattern⟩

theorem filter_ifSet_self {α : Type} (name : String) (toJson : α → Json) (value : Option α) :
    (ifSet name toJson value).filter (·.1 = name) = ifSet name toJson value := by
  cases value <;> simp [ifSet]

theorem filter_ifSet_of_ne {α : Type} {name other : String} (h : name ≠ other)
    (toJson : α → Json) (value : Option α) :
    (ifSet name toJson value).filter (·.1 = other) = [] := by
  cases value <;> simp [ifSet, h]

theorem tells_ifSet {α : Type} {decode : Json → Decoded α} {toJson : α → Json} (name : String)
    (read : ∀ x, Json.optional decode (toJson x) = .ok (some x)) (value : Option α) :
    Tells (Json.optional decode) (ifSet name toJson value) (value.map some) := by
  cases value with
  | none => exact .nothing
  | some x => exact .one (read x)

theorem ofJson_toJson (rule : Rule) : ofJson rule.toJson = .ok rule := by
  obtain ⟨kind, min, max, pattern⟩ := rule
  have counted : ∀ n, Json.optional Json.count (countJson n) = .ok (some n) :=
    fun n => Json.optional_of_ok (Json.count_toNat n) nofun
  have filled : Draft.Filled {} (("match", .str kind.name) :: ifSet "max" countJson max
      ++ ifSet "min" countJson min ++ ifSet "regex" .str pattern)
      ⟨some kind, min.map some, max.map some, pattern.map some⟩ := by
    refine ⟨Json.fills_of_tells ?_, Json.fills_of_tells ?_, Json.fills_of_tells ?_,
      Json.fills_of_tells ?_⟩
    · simpa [List.filter_cons, filter_ifSet_of_ne] using Tells.one (RuleKind.ofJson_name kind)
    · simpa [List.filter_cons, filter_ifSet_of_ne, filter_ifSet_self] using
        tells_ifSet "min" counted min
    · simpa [List.filter_cons, filter_ifSet_of_ne, filter_ifSet_self] using
        tells_ifSet "max" counted max
    · simpa [List.filter_cons, filter_ifSet_of_ne, filter_ifSet_self] using
        tells_ifSet "regex" (fun _ => rfl) pattern
  have joined : ∀ {α : Type} (o : Option α), (o.map some).join = o := by
    intro α o
    cases o <;> rfl
  rw [toJson, ofJson, foldlM_add filled]
  simp only [bind, Except.bind, Draft.finish, Json.require, joined]
  rfl

end Rule

namespace RuleTable

theorem entryOfMember_toJson (entry : String × Rule) :
    entryOfMember (entry.1, entry.2.toJson) = .ok entry := by
  rw [entryOfMember, Rule.ofJson_toJson]
  rfl

theorem mapM_entryOfMember (entries : List (String × Rule)) :
    (entries.map fun entry => (entry.1, entry.2.toJson)).mapM entryOfMember = .ok entries := by
  induction entries with
  | nil => rfl
  | cons entry rest ih =>
    rw [List.map_cons, List.mapM_cons, entryOfMember_toJson, ih]
    rfl

theorem ofJson_toJson (table : RuleTable) : ofJson table.toJson = .ok table := by
  have same : ofList table.entries = table := ext (Keyed.ofList_of_sorted table.sorted)
  rw [toJson, ofJson, mapM_entryOfMember]
  simp only [bind, Except.bind, same]
  rfl

end RuleTable

end ContractFixture
