import ContractFixture.Proofs.Fixture.Rules
import ContractFixture.Proofs.Json.Addressed
import ContractFixture.Proofs.Path.Text
import ContractFixture.Proofs.Template.Keys
import Mathlib.Algebra.Group.Nat.Defs

/-!
# What the paths of a fixture address

Below lists of the template itself a path does not tell one place from another. Everywhere else, and
with plain keys, it addresses what the place describes and nothing else.
-/

namespace ContractFixture.Template

open ContractFixture.Path (stepsText PlainName)

/-! ## One step down -/

/-- How many copies a document holds of what stands below the node. -/
def ownCopies : Template → Nat
  | .each _ min max => (Matcher.repetitions min max).toNat
  | _ => 1

theorem get?_documents {entries : List (String × Template)} (sorted : Keyed.Sorted entries)
    {e : String × Template} (member : e ∈ entries) :
    Keyed.get? e.1 (entries.map fun e => (e.1, e.2.document)) = some e.2.document := by
  rw [Keyed.get?_map document, Keyed.get?_of_mem sorted member]
  rfl

theorem addressed_child {t : Template} (h : t.WellFormed) (noList : ∀ items, t ≠ .list items)
    {c : List Path.Step × Template} (isChild : c ∈ t.children) (rest : List Path.Step) :
    t.document.addressed (c.1 ++ rest) =
      (List.replicate t.ownCopies (c.2.document.addressed rest)).flatten := by
  cases isChild using child_cases with
  | map entries e member =>
    rw [document_map]
    simpa [ownCopies] using Json.addressed_member (get?_documents h.1 member) rest
  | list items item member => exact absurd rfl (noList items)
  | like contents => simp [ownCopies]
  | each contents min max =>
    simp only [document_each, List.singleton_append, Json.addressed_items, List.flatMap_replicate,
      ownCopies]
  | object fields e member =>
    rw [document_object]
    simpa [ownCopies] using Json.addressed_member (get?_documents h.1 member) rest

theorem entry_of_addressed {entries : List (String × Template)} (sorted : Keyed.Sorted entries)
    (plain : ∀ key ∈ entries.map (·.1), PlainName key) {e : String × Template}
    (member : e ∈ entries)
    {steps rest : List Path.Step} {value : Json}
    (leads : value ∈ (Json.obj (entries.map fun e => (e.1, e.2.document))).addressed steps)
    (text : stepsText steps = stepsText (.member e.1 :: rest)) :
    ∃ below, steps = .member e.1 :: below ∧ stepsText below = stepsText rest ∧
      value ∈ e.2.document.addressed below := by
  cases steps with
  | nil => simp at text
  | cons first below =>
    -- The first step may name any member; the text tells that it is this one.
    obtain ⟨name, value', rfl, found, leads⟩ := Json.member_of_addressed leads
    rw [Keyed.get?_map document, Option.map_eq_some_iff] at found
    obtain ⟨other, found, rfl⟩ := found
    have isKey : name ∈ entries.map (·.1) := List.mem_map_of_mem (Keyed.mem_of_get? found)
    obtain ⟨rfl, below_text⟩ := Path.name_of_text (plain name isKey)
      (plain e.1 (List.mem_map_of_mem member)) (List.cons.inj text).2
    rw [Keyed.get?_of_mem sorted member] at found
    obtain rfl := Option.some.inj found
    exact ⟨below, rfl, below_text, leads⟩

theorem child_of_addressed {t : Template} (h : t.WellFormed) (noList : ∀ items, t ≠ .list items)
    (plain : ∀ key ∈ t.ownKeys, PlainName key) {c : List Path.Step × Template}
    (isChild : c ∈ t.children) {steps rest : List Path.Step} {value : Json}
    (leads : value ∈ t.document.addressed steps)
    (text : stepsText steps = stepsText (c.1 ++ rest)) :
    ∃ below, steps = c.1 ++ below ∧ stepsText below = stepsText rest ∧
      value ∈ c.2.document.addressed below := by
  cases isChild using child_cases with
  | map entries e member =>
    rw [document_map] at leads
    exact entry_of_addressed h.1 plain member leads text
  | list items item member => exact absurd rfl (noList items)
  | like contents =>
    rw [document_like] at leads
    exact ⟨steps, rfl, text, leads⟩
  | each contents min max =>
    rw [document_each] at leads
    cases steps with
    | nil => simp at text
    | cons first below =>
      obtain ⟨rfl, item, member, leads⟩ := Json.item_of_addressed leads
      obtain rfl := List.eq_of_mem_replicate member
      simp only [List.singleton_append, Path.stepsText_items, List.cons.injEq, true_and] at text
      exact ⟨below, rfl, text, leads⟩
  | object fields e member =>
    rw [document_object] at leads
    exact entry_of_addressed h.1 plain member leads text

/-! ## The way to a place -/

/-- How many copies a document holds of what stands below these nodes. -/
def copies (around : List Template) : Nat := (around.map ownCopies).prod

theorem copies_cons (t : Template) (around : List Template) :
    copies (t :: around) = t.ownCopies * copies around := by
  rw [copies, List.map_cons, List.prod_cons, copies]

theorem ownCopies_ne_zero_iff {t : Template} :
    t.ownCopies ≠ 0 ↔
      ∀ contents min max, .each contents min max = t → Matcher.repetitions min max ≠ 0 := by
  have toNat : ∀ n : UInt64, n.toNat ≠ 0 ↔ n ≠ 0 := fun n => not_congr (UInt64.toNat_inj (b := 0))
  cases t with
  | each contents min max =>
    rw [ownCopies, toNat]
    constructor
    · rintro some _ _ _ same
      obtain ⟨rfl, rfl, rfl⟩ := Template.each.inj same
      exact some
    · exact fun some => some contents min max rfl
  | _ => simp [ownCopies]

theorem copies_ne_zero_iff {around : List Template} :
    copies around ≠ 0 ↔
      ∀ contents min max, .each contents min max ∈ around → Matcher.repetitions min max ≠ 0 := by
  induction around with
  | nil => simp [copies]
  | cons t rest ih =>
    rw [copies_cons, Nat.mul_ne_zero_iff, ih, ownCopies_ne_zero_iff]
    simp only [List.mem_cons, or_imp, forall_and]

theorem no_list_cons {t : Template} {around : List Template}
    (noList : ∀ items, .list items ∉ t :: around) :
    (∀ items, t ≠ .list items) ∧ ∀ items, .list items ∉ around := by
  constructor
  · rintro items rfl
    exact noList items (List.mem_cons_self ..)
  · intro items inside
    exact noList items (List.mem_cons_of_mem t inside)

/-- Where no list stands around a place, its steps lead to all copies of what it describes. -/
theorem addressed_place {t : Template} (h : t.WellFormed) {place : Place}
    (member : place ∈ t.places) (noList : ∀ items, .list items ∉ place.around) :
    t.document.addressed place.steps =
      List.replicate (copies place.around) place.node.document := by
  induction t using children_induction generalizing place with
  | node t ih =>
    rcases mem_places.mp member with rfl | ⟨c, isChild, below, placed, rfl⟩
    · exact Json.addressed_nil t.document
    · obtain ⟨noListHere, noListBelow⟩ := no_list_cons noList
      -- The copies of the child, each with all the copies below it.
      have step := addressed_child h noListHere isChild below.steps
      rw [ih c isChild (h.of_mem_children isChild) placed noListBelow,
        List.flatten_replicate_replicate, ← copies_cons] at step
      exact step

/-- With plain keys only the steps of the place itself have its path and lead to a value. -/
theorem steps_of_addressed {t : Template} (h : t.WellFormed)
    (plain : ∀ key ∈ t.keys, PlainName key) {place : Place} (member : place ∈ t.places)
    (noList : ∀ items, .list items ∉ place.around) {steps : List Path.Step} {value : Json}
    (leads : value ∈ t.document.addressed steps) (text : stepsText steps = stepsText place.steps) :
    steps = place.steps := by
  induction t using children_induction generalizing place steps with
  | node t ih =>
    rcases mem_places.mp member with rfl | ⟨c, isChild, below, placed, rfl⟩
    · cases steps with
      | nil => rfl
      | cons first rest => cases first <;> simp [Place.here] at text
    · obtain ⟨noListHere, noListBelow⟩ := no_list_cons noList
      have plainHere : ∀ key ∈ t.ownKeys, PlainName key :=
        fun key isKey => plain key (mem_keys.mpr (Or.inl isKey))
      have plainBelow : ∀ key ∈ keys c.2, PlainName key :=
        fun key isKey => plain key (mem_keys.mpr (Or.inr ⟨c, isChild, isKey⟩))
      obtain ⟨rest, rfl, text, leads⟩ :=
        child_of_addressed h noListHere plainHere isChild leads text
      rw [ih c isChild (h.of_mem_children isChild) plainBelow placed noListBelow leads text]
      rfl

end ContractFixture.Template
