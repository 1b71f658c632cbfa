import ContractFixture.Json.Basic
import ContractFixture.Path
import ContractFixture.Proofs.Keyed

/-! # The values that a path addresses -/

namespace ContractFixture.Json

/-- The values that the steps lead to, in the order of the document. -/
def addressed : Json → List Path.Step → List Json
  | value, [] => [value]
  | .obj members, .member name :: rest =>
    match Keyed.get? name members with
    | some value => addressed value rest
    | none => []
  | .arr items, .items :: rest => items.flatMap (addressed · rest)
  | _, _ :: _ => []

/-- Some steps whose path has this text lead to the value. -/
def Addresses (document : Json) (path : String) (value : Json) : Prop :=
  ∃ steps, (Path.root.follow steps).text = path ∧ value ∈ document.addressed steps

/-- A list of `count` equal items. -/
def IsUniform (value : Json) (count : Nat) : Prop :=
  ∃ item, value = .arr (List.replicate count item)

@[simp] theorem addressed_nil (value : Json) : value.addressed [] = [value] := by
  cases value <;> rfl

theorem addressed_member {name : String} {members : List (String × Json)} {value : Json}
    (h : Keyed.get? name members = some value) (rest : List Path.Step) :
    (obj members).addressed (.member name :: rest) = value.addressed rest := by
  rw [addressed, h]

theorem addressed_items (items : List Json) (rest : List Path.Step) :
    (arr items).addressed (.items :: rest) = items.flatMap (addressed · rest) := rfl

theorem member_of_addressed {members : List (String × Json)} {first : Path.Step}
    {rest : List Path.Step} {value : Json} (h : value ∈ (obj members).addressed (first :: rest)) :
    ∃ name below, first = .member name ∧ Keyed.get? name members = some below ∧
      value ∈ below.addressed rest := by
  cases first with
  | member name =>
    rw [addressed] at h
    split at h
    · rename_i below found
      exact ⟨name, below, rfl, found, h⟩
    · exact absurd h List.not_mem_nil
  | items => exact absurd h List.not_mem_nil

theorem item_of_addressed {items : List Json} {first : Path.Step} {rest : List Path.Step}
    {value : Json} (h : value ∈ (arr items).addressed (first :: rest)) :
    first = .items ∧ ∃ item ∈ items, value ∈ item.addressed rest := by
  cases first with
  | member name => exact absurd h List.not_mem_nil
  | items => exact ⟨rfl, List.mem_flatMap.mp h⟩

end ContractFixture.Json
