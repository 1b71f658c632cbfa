import ContractFixture.Proofs.Rule.Table
import ContractFixture.Proofs.Text.ByteOrder
import Mathlib.Data.List.Dedup

/-! # What a table holds after changes -/

namespace ContractFixture.RuleTable

/-! ## Changes -/

inductive Change where
  | insert (path : String) (rule : Rule)
  | collect (entries : List (String × Rule))
  | clear

def change (table : RuleTable) : Change → RuleTable
  | .insert path rule => (table.exchange path rule).2
  | .collect entries => ofList entries
  | .clear => .empty

def after (changes : List Change) : RuleTable := changes.foldl change .empty

/-! ## What was given -/

/-- What has been given since a table was last filled anew or emptied, if `sofar` was before. -/
def givenNext (sofar : List (String × Rule)) : Change → List (String × Rule)
  | .insert path rule => sofar ++ [(path, rule)]
  | .collect entries => entries
  | .clear => []

def given (changes : List Change) : List (String × Rule) := changes.foldl givenNext []

/-- The rule that was given last for the path. -/
def lastGiven (changes : List Change) (path : String) : Option Rule :=
  ((given changes).filter (·.1 = path)).getLast?.map (·.2)

/-! ## Runs -/

theorem after_append_singleton (changes : List Change) (c : Change) :
    after (changes ++ [c]) = (after changes).change c := by
  simp [after]

theorem ofList_append_singleton (entries : List (String × Rule)) (path : String) (rule : Rule) :
    ofList (entries ++ [(path, rule)]) = (ofList entries).insert path rule := by
  apply ext
  simp [ofList, insert, Keyed.ofList, List.foldl_append]

theorem change_ofList (entries : List (String × Rule)) (c : Change) :
    (ofList entries).change c = ofList (givenNext entries c) := by
  cases c with
  | insert path rule => rw [change, exchange_eq, givenNext, ofList_append_singleton]
  | collect entries => rfl
  | clear => rfl

theorem after_eq (changes : List Change) : after changes = ofList (given changes) := by
  suffices ∀ entries, changes.foldl change (ofList entries) =
      ofList (changes.foldl givenNext entries) from this []
  induction changes with
  | nil => exact fun entries => rfl
  | cons c rest ih =>
    intro entries
    rw [List.foldl_cons, List.foldl_cons, change_ofList]
    exact ih _

theorem get?_after (changes : List Change) (path : String) :
    (after changes).get? path = lastGiven changes path := by
  rw [after_eq, get?_ofList, lastGiven]

theorem eq_of_get? {a b : RuleTable} (same : ∀ path, a.get? path = b.get? path) : a = b :=
  ext (a.sorted.eq_of_get? b.sorted same)

/-! ## Answers -/

theorem mem_entries_iff {table : RuleTable} {path : String} {rule : Rule} :
    (path, rule) ∈ table.entries ↔ table.get? path = some rule :=
  Keyed.mem_iff_get? (Keyed.nodup_keys_of_sorted table.sorted)

theorem entries_ordered (table : RuleTable) :
    table.entries.Pairwise fun a b => Text.bytes a.1.toList < Text.bytes b.1.toList :=
  table.sorted.imp fun less => Text.bytes_lt (String.lt_iff.mp less)

theorem paths_ordered (table : RuleTable) :
    table.paths.Pairwise fun a b => Text.bytes a.toList < Text.bytes b.toList :=
  List.pairwise_map.mpr table.entries_ordered

theorem size_ofList (entries : List (String × Rule)) :
    (ofList entries).size = (entries.map (·.1)).dedup.length := by
  have once := Keyed.nodup_keys_of_sorted (Keyed.sorted_ofList entries)
  have paths : (Keyed.ofList entries |>.map (·.1)).Perm (entries.map (·.1)).dedup := by
    rw [List.perm_ext_iff_of_nodup once (List.nodup_dedup _)]
    intro path
    rw [List.mem_dedup, Keyed.mem_keys_ofList]
  rw [← paths.length_eq, List.length_map]
  rfl

structure AnswersFor (changes : List Change) (table : RuleTable) : Prop where
  stored : ∀ path rule, (path, rule) ∈ table.entries ↔ lastGiven changes path = some rule
  get : ∀ path, table.get? path = lastGiven changes path
  exchange : ∀ path rule, table.exchange path rule =
    (lastGiven changes path, after (changes ++ [.insert path rule]))
  listed : ∀ path, path ∈ table.paths ↔ (lastGiven changes path).isSome
  paths_ordered : table.paths.Pairwise fun a b => Text.bytes a.toList < Text.bytes b.toList
  entries_ordered :
    table.entries.Pairwise fun a b => Text.bytes a.1.toList < Text.bytes b.1.toList
  size : table.size = ((given changes).map (·.1)).dedup.length

theorem answersFor_after (changes : List Change) : (after changes).AnswersFor changes where
  stored path rule := by rw [mem_entries_iff, get?_after]
  get := get?_after changes
  exchange path rule := by
    rw [exchange_eq, get?_after, after_append_singleton, change, exchange_eq]
  listed path := by rw [mem_paths_iff, get?_after]
  paths_ordered := paths_ordered _
  entries_ordered := entries_ordered _
  size := by rw [after_eq, size_ofList]

def SameRules (changes others : List Change) : Prop :=
  ∀ path, lastGiven changes path = lastGiven others path

theorem after_eq_iff {changes others : List Change} :
    after changes = after others ↔ SameRules changes others := by
  constructor
  · intro same path
    rw [← get?_after, same, get?_after]
  · intro same
    apply eq_of_get?
    intro path
    rw [get?_after, same path, get?_after]

end ContractFixture.RuleTable
