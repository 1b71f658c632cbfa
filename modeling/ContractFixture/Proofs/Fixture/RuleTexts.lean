import ContractFixture.Proofs.Fixture.Wire
import ContractFixture.Proofs.Rule.History

/-! # Texts tell the rules -/

namespace ContractFixture

open Json.Grammar (document_of_value value_compactChars value_prettyChars)
open Json.Reader (document_unique)

/-! ## The line of a table -/

namespace Rule

theorem members_perm (rule : Rule) :
    (("match", .str rule.kind.name) :: ifSet "min" countJson rule.min
      ++ ifSet "max" countJson rule.max ++ ifSet "regex" .str rule.pattern).Perm
    (("match", .str rule.kind.name) :: ifSet "max" countJson rule.max
      ++ ifSet "min" countJson rule.min ++ ifSet "regex" .str rule.pattern) :=
  (List.perm_append_comm.append_right _).cons _

theorem canonical_toJsonAsListed (rule : Rule) : rule.toJsonAsListed.canonical = rule.toJson :=
  Json.canonical_obj_of_perm rule.isCanonical_toJson rule.members_perm

theorem onlyWords_toJsonAsListed (rule : Rule) : rule.toJsonAsListed.OnlyWords := by
  have words := rule.onlyWords_toJson
  rw [toJson] at words
  cases words with
  | obj each => exact .obj fun m member => each m (rule.members_perm.mem_iff.mp member)

end Rule

namespace RuleTable

def listed (table : RuleTable) : Json :=
  .obj (table.entries.map fun entry => (entry.1, entry.2.toJsonAsListed))

theorem canonical_listed (table : RuleTable) : table.listed.canonical = table.toJson := by
  have members : (table.entries.map fun e => (e.1, e.2.toJsonAsListed)).map
      (fun m => (m.1, m.2.canonical)) = table.entries.map fun e => (e.1, e.2.toJson) := by
    simp only [List.map_map, Function.comp_def, Rule.canonical_toJsonAsListed]
  rw [listed, Json.canonical, Json.canonicalMembers_eq, members,
    Keyed.ofList_of_sorted (table.sorted.map Rule.toJson), toJson]

theorem onlyWords_listed (table : RuleTable) : table.listed.OnlyWords := by
  refine .obj fun m member => ?_
  obtain ⟨entry, -, rfl⟩ := List.mem_map.mp member
  exact entry.2.onlyWords_toJsonAsListed

theorem toJson_injective {a b : RuleTable} (same : a.toJson = b.toJson) : a = b := by
  have read := ofJson_toJson a
  rw [same, ofJson_toJson] at read
  exact (Except.ok.inj read).symm

theorem text_eq_iff {a b : RuleTable} : a.text = b.text ↔ a = b := by
  refine ⟨fun same => toJson_injective ?_, congrArg text⟩
  have written : a.listed.compactChars = b.listed.compactChars := String.ofList_injective same
  have read := document_of_value (value_compactChars b.onlyWords_listed)
  rw [← written] at read
  have documents := document_unique (document_of_value (value_compactChars a.onlyWords_listed)) read
  rw [← canonical_listed a, documents, canonical_listed]

end RuleTable

/-! ## The text of a fixture -/

theorem Fixture.pretty_eq_iff (body : Json) {a b : RuleTable} :
    (Fixture.mk body a).pretty = (Fixture.mk body b).pretty ↔ a = b := by
  refine ⟨fun same => RuleTable.toJson_injective ?_, fun same => same ▸ rfl⟩
  have chars := String.ofList_injective same
  simp only [toJson, Json.prettyChars, Json.prettyMembers, List.append_assoc,
    List.cons_append, List.append_cancel_left_eq, List.append_cancel_right_eq,
    List.cons.injEq, true_and] at chars
  have read := document_of_value (value_prettyChars b.onlyWords_toJson 1)
  rw [← chars] at read
  exact document_unique (document_of_value (value_prettyChars a.onlyWords_toJson 1)) read

namespace RuleTable

/-- After any changes a table answers with what was given last, in the order of the bytes of its
paths. Only tables for which the same was given last are equal, or have one text. -/
theorem history_decides_table (changes : List Change) :
    (after changes).AnswersFor changes ∧
    ∀ others,
      (after changes = after others ↔ SameRules changes others) ∧
      ((after changes).text = (after others).text ↔ SameRules changes others) ∧
      ∀ body, (Fixture.mk body (after changes)).pretty = (Fixture.mk body (after others)).pretty ↔
        SameRules changes others := by
  refine ⟨answersFor_after changes, fun others => ⟨after_eq_iff, ?_, fun body => ?_⟩⟩
  · rw [text_eq_iff, after_eq_iff]
  · rw [Fixture.pretty_eq_iff, after_eq_iff]

end RuleTable

end ContractFixture
