import ContractFixture.Keyed
import ContractFixture.Path
import ContractFixture.Rule.Basic

/-! # Rule tables -/

namespace ContractFixture

structure RuleTable where
  entries : List (String × Rule)
  sorted : Keyed.Sorted entries
deriving DecidableEq

namespace RuleTable

def empty : RuleTable := ⟨[], Keyed.sorted_nil⟩

instance : Inhabited RuleTable := ⟨empty⟩

def get? (table : RuleTable) (path : String) : Option Rule := Keyed.get? path table.entries

def insert (table : RuleTable) (path : String) (rule : Rule) : RuleTable :=
  ⟨Keyed.insert path rule table.entries, table.sorted.insert path rule⟩

/-- Stores `rule` at `path`, and gives the rule that stood there before. -/
def exchange (table : RuleTable) (path : String) (rule : Rule) : Option Rule × RuleTable :=
  match h : Keyed.exchange path rule table.entries with
  | (previous, entries) =>
    have stored : Keyed.insert path rule table.entries = entries := by
      rw [← Keyed.exchange_snd, h]
    (previous, ⟨entries, stored ▸ table.sorted.insert path rule⟩)

def ofList (entries : List (String × Rule)) : RuleTable :=
  ⟨Keyed.ofList entries, Keyed.sorted_ofList entries⟩

def size (table : RuleTable) : Nat := table.entries.length

def isEmpty (table : RuleTable) : Bool := table.entries.isEmpty

def paths (table : RuleTable) : List String := table.entries.map (·.1)

@[ext] theorem ext {a b : RuleTable} (h : a.entries = b.entries) : a = b := by
  cases a
  cases b
  simpa using h

@[simp] theorem get?_insert_self (table : RuleTable) (path : String) (rule : Rule) :
    (table.insert path rule).get? path = some rule :=
  Keyed.get?_insert_self path rule table.entries

theorem exchange_eq (table : RuleTable) (path : String) (rule : Rule) :
    table.exchange path rule = (table.get? path, table.insert path rule) := by
  have previous := Keyed.exchange_fst table.sorted path rule
  have entries := Keyed.exchange_snd path rule table.entries
  rw [exchange]
  split
  rename_i found stored h
  rw [h] at previous entries
  subst previous
  exact Prod.ext rfl (ext entries)

end RuleTable

end ContractFixture
