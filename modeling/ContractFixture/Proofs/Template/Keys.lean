import ContractFixture.Proofs.Keyed
import ContractFixture.Proofs.Template.Places

/-! # Keys of a template -/

namespace ContractFixture.Template

/-! ## Well-formed templates -/

theorem wellFormedItems_iff {items : List Template} :
    WellFormedItems items ↔ ∀ item ∈ items, item.WellFormed := by
  induction items with
  | nil => simp [WellFormedItems]
  | cons item rest ih => rw [WellFormedItems, ih, List.forall_mem_cons]

theorem wellFormedEntries_iff {entries : List (String × Template)} :
    WellFormedEntries entries ↔ ∀ e ∈ entries, e.2.WellFormed := by
  induction entries with
  | nil => simp [WellFormedEntries]
  | cons e rest ih => rw [WellFormedEntries, ih, List.forall_mem_cons]

theorem WellFormed.of_mem_children {t : Template} (h : t.WellFormed)
    {c : List Path.Step × Template} (isChild : c ∈ t.children) : c.2.WellFormed := by
  cases isChild using child_cases with
  | map entries e member => exact wellFormedEntries_iff.mp h.2 e member
  | list items item member => exact wellFormedItems_iff.mp h item member
  | like contents => exact h
  | each contents min max => exact h
  | object fields e member => exact wellFormedEntries_iff.mp h.2 e member

/-! ## Keys -/

def ownKeys : Template → List String
  | .map entries | .object entries => entries.map (·.1)
  | _ => []

/-- The keys of all maps and objects in a template. -/
def keys (t : Template) : List String := t.places.flatMap (·.node.ownKeys)

theorem mem_keys {t : Template} {key : String} :
    key ∈ t.keys ↔ key ∈ t.ownKeys ∨ ∃ c ∈ t.children, key ∈ keys c.2 := by
  have below : ∀ c : List Path.Step × Template,
      ((places c.2).map (Place.under t c.1)).flatMap (fun place : Place => place.node.ownKeys) =
        keys c.2 := by
    intro c
    rw [keys, List.flatMap_map]
    rfl
  rw [keys, places_eq, List.flatMap_cons, List.flatMap_assoc, List.mem_append, List.mem_flatMap]
  simp only [below]
  rfl

theorem mem_keys_each {contents : Template} {min max : UInt64} {key : String} :
    key ∈ (each contents min max).keys ↔ key ∈ contents.keys := by
  rw [mem_keys]
  simp [ownKeys, children]

theorem name_mem_ownKeys {t : Template} {c : List Path.Step × Template} (isChild : c ∈ t.children)
    {name : String} (h : .member name ∈ c.1) : name ∈ t.ownKeys := by
  cases isChild using child_cases with
  | map entries e member | object fields e member =>
    obtain rfl := Path.Step.member.inj (List.mem_singleton.mp h)
    exact List.mem_map_of_mem member
  | list _ _ _ | like _ | each _ _ _ => simp at h

theorem name_mem_keys {t : Template} {place : Place} (member : place ∈ t.places) {name : String}
    (h : .member name ∈ place.steps) : name ∈ t.keys := by
  induction t using children_induction generalizing place with
  | node t ih =>
    rcases mem_places.mp member with rfl | ⟨c, isChild, below, placed, rfl⟩
    · exact absurd h List.not_mem_nil
    · rcases List.mem_append.mp h with h | h
      · exact mem_keys.mpr (Or.inl (name_mem_ownKeys isChild h))
      · exact mem_keys.mpr (Or.inr ⟨c, isChild, ih c isChild placed h⟩)

/-! ## The ways to the keys -/

def keyWays (t : Template) : List (List Path.Step) :=
  t.places.flatMap fun place => place.node.ownKeys.map fun key => place.steps ++ [.member key]

theorem keyWays_eq (t : Template) :
    t.keyWays = (t.ownKeys.map fun key => [.member key]) ++
      t.children.flatMap fun c => (keyWays c.2).map (c.1 ++ ·) := by
  have below : ∀ c : List Path.Step × Template,
      (((places c.2).map (Place.under t c.1)).flatMap fun place : Place =>
          place.node.ownKeys.map fun key => place.steps ++ [.member key]) =
        (keyWays c.2).map (c.1 ++ ·) := by
    intro c
    rw [keyWays, List.flatMap_map, List.map_flatMap]
    simp [Place.under, Function.comp_def]
  rw [keyWays, places_eq, List.flatMap_cons, List.flatMap_assoc]
  simp only [below]
  rfl

theorem keyWays_of_no_keys {t : Template} (h : t.keys = []) : t.keyWays = [] := by
  rw [keys, List.flatMap_eq_nil_iff] at h
  rw [keyWays, List.flatMap_eq_nil_iff]
  intro place member
  rw [h place member, List.map_nil]

theorem keyWays_each (contents : Template) (min max : UInt64) :
    (each contents min max).keyWays = contents.keyWays.map (.items :: ·) := by
  rw [keyWays_eq]
  simp [ownKeys, children]

theorem keyWays_object (fields : List (String × Template)) :
    (object fields).keyWays = (fields.map fun e => [.member e.1]) ++
      fields.flatMap fun e => e.2.keyWays.map (.member e.1 :: ·) := by
  rw [keyWays_eq]
  simp [ownKeys, children, List.flatMap_map, Function.comp_def]

end ContractFixture.Template
