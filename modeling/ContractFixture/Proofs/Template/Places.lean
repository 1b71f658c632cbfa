import ContractFixture.Path
import ContractFixture.Template.Matcher

/-!
# Places of a template

They are listed in the order of a walk, the contents of a repetition once, however many copies of
them a document holds.
-/

namespace ContractFixture

namespace Template

/-! ## Nodes below a node -/

/-- What stands directly below a node. What a `like` wraps shares its path. -/
def children : Template → List (List Path.Step × Template)
  | .literal _ | .pattern _ _ | .rawText _ => []
  | .map entries | .object entries => entries.map fun e => ([.member e.1], e.2)
  | .list items => items.map fun item => ([.items], item)
  | .like contents => [([], contents)]
  | .each contents _ _ => [([.items], contents)]

@[elab_as_elim]
theorem child_cases
    {motive : (t : Template) → (c : List Path.Step × Template) → c ∈ t.children → Prop}
    (map : ∀ (entries : List (String × Template)) e (member : e ∈ entries),
      motive (.map entries) ([.member e.1], e.2) (List.mem_map_of_mem member))
    (list : ∀ (items : List Template) item (member : item ∈ items),
      motive (.list items) ([.items], item) (List.mem_map_of_mem member))
    (like : ∀ contents, motive (.like contents) ([], contents) (List.mem_singleton_self _))
    (each : ∀ contents min max,
      motive (.each contents min max) ([.items], contents) (List.mem_singleton_self _))
    (object : ∀ (fields : List (String × Template)) e (member : e ∈ fields),
      motive (.object fields) ([.member e.1], e.2) (List.mem_map_of_mem member))
    {t : Template} {c : List Path.Step × Template} (isChild : c ∈ t.children) :
    motive t c isChild := by
  cases t with
  | literal _ | pattern _ _ | rawText _ => exact absurd isChild List.not_mem_nil
  | map entries =>
    obtain ⟨e, member, rfl⟩ := List.mem_map.mp isChild
    exact map entries e member
  | list items =>
    obtain ⟨item, member, rfl⟩ := List.mem_map.mp isChild
    exact list items item member
  | like contents =>
    obtain rfl := List.mem_singleton.mp isChild
    exact like contents
  | each contents min max =>
    obtain rfl := List.mem_singleton.mp isChild
    exact each contents min max
  | object fields =>
    obtain ⟨e, member, rfl⟩ := List.mem_map.mp isChild
    exact object fields e member

theorem sizeOf_entry_lt {entries : List (String × Template)} {e : String × Template}
    (member : e ∈ entries) : sizeOf e.2 < sizeOf entries := by
  have entry := List.sizeOf_lt_of_mem member
  obtain ⟨key, value⟩ := e
  rw [Prod.mk.sizeOf_spec] at entry
  show sizeOf value < _
  omega

theorem sizeOf_lt_of_mem_children {t : Template} {c : List Path.Step × Template}
    (isChild : c ∈ t.children) : sizeOf c.2 < sizeOf t := by
  cases isChild using child_cases with
  | map entries e member =>
    have := sizeOf_entry_lt member
    simp
    omega
  | list items item member =>
    have := List.sizeOf_lt_of_mem member
    simp
    omega
  | like contents => simp
  | each contents min max =>
    simp
    omega
  | object fields e member =>
    have := sizeOf_entry_lt member
    simp
    omega

theorem children_induction {P : Template → Prop} (node : ∀ t, (∀ c ∈ t.children, P c.2) → P t)
    (t : Template) : P t :=
  node t fun c h =>
    have := sizeOf_lt_of_mem_children h
    children_induction node c.2
termination_by sizeOf t

@[elab_as_elim, induction_eliminator]
theorem node_induction {motive : Template → Prop}
    (literal : ∀ value, motive (.literal value))
    (map : ∀ entries : List (String × Template), (∀ e ∈ entries, motive e.2) →
      motive (.map entries))
    (list : ∀ items : List Template, (∀ item ∈ items, motive item) → motive (.list items))
    (like : ∀ contents, motive contents → motive (.like contents))
    (pattern : ∀ sample form, motive (.pattern sample form))
    (each : ∀ contents min max, motive contents → motive (.each contents min max))
    (rawText : ∀ text, motive (.rawText text))
    (object : ∀ fields : List (String × Template), (∀ e ∈ fields, motive e.2) →
      motive (.object fields))
    (t : Template) : motive t := by
  refine children_induction (fun t ih => ?_) t
  cases t with
  | literal value => exact literal value
  | map entries => exact map entries fun e he => ih _ (List.mem_map_of_mem he)
  | list items => exact list items fun item hi => ih _ (List.mem_map_of_mem hi)
  | like contents => exact like contents (ih _ (List.mem_singleton_self _))
  | pattern sample form => exact pattern sample form
  | each contents min max => exact each contents min max (ih _ (List.mem_singleton_self _))
  | rawText text => exact rawText text
  | object fields => exact object fields fun e he => ih _ (List.mem_map_of_mem he)

/-! ## Places -/

/-- A node, the nodes around it from the root on, and the steps of its path. -/
structure Place where
  around : List Template
  steps : List Path.Step
  node : Template

def Place.here (t : Template) : Place := ⟨[], [], t⟩

def Place.under (parent : Template) (steps : List Path.Step) (place : Place) : Place :=
  ⟨parent :: place.around, steps ++ place.steps, place.node⟩

mutual

def places : Template → List Place
  | .literal value => [.here (.literal value)]
  | .map entries => .here (.map entries) :: entryPlaces (.map entries) entries
  | .list items => .here (.list items) :: itemPlaces (.list items) items
  | .like contents => .here (.like contents) :: (places contents).map (.under (.like contents) [])
  | .pattern sample form => [.here (.pattern sample form)]
  | .each contents min max =>
    .here (.each contents min max)
      :: (places contents).map (.under (.each contents min max) [.items])
  | .rawText text => [.here (.rawText text)]
  | .object fields => .here (.object fields) :: entryPlaces (.object fields) fields

def itemPlaces (parent : Template) : List Template → List Place
  | [] => []
  | item :: rest => (places item).map (.under parent [.items]) ++ itemPlaces parent rest

def entryPlaces (parent : Template) : List (String × Template) → List Place
  | [] => []
  | (key, value) :: rest =>
    (places value).map (.under parent [.member key]) ++ entryPlaces parent rest

end

theorem itemPlaces_eq (parent : Template) (items : List Template) :
    itemPlaces parent items =
      items.flatMap fun item => (places item).map (.under parent [.items]) := by
  induction items with
  | nil => rfl
  | cons item rest ih => rw [itemPlaces, ih, List.flatMap_cons]

theorem entryPlaces_eq (parent : Template) (entries : List (String × Template)) :
    entryPlaces parent entries =
      entries.flatMap fun e => (places e.2).map (.under parent [.member e.1]) := by
  induction entries with
  | nil => rfl
  | cons e rest ih => rw [entryPlaces, ih, List.flatMap_cons]

theorem places_eq (t : Template) :
    t.places = .here t :: t.children.flatMap fun c => (places c.2).map (.under t c.1) := by
  cases t <;> simp [places, children, itemPlaces_eq, entryPlaces_eq, List.flatMap_map]

theorem mem_places {t : Template} {place : Place} :
    place ∈ t.places ↔ place = .here t ∨
      ∃ c ∈ t.children, ∃ below ∈ places c.2, place = below.under t c.1 := by
  rw [places_eq]
  simp [eq_comm]

/-! ## Visits -/

/-- A matcher, the nodes around it from the root on, and the steps of its path. -/
structure Visit where
  around : List Template
  steps : List Path.Step
  matcher : Matcher

namespace Visit

def pathFrom (path : Path) (visit : Visit) : Path := path.follow visit.steps

def path (visit : Visit) : Path := visit.pathFrom .root

def rule (visit : Visit) : Rule := visit.matcher.rule

def under (parent : Template) (steps : List Path.Step) (visit : Visit) : Visit :=
  ⟨parent :: visit.around, steps ++ visit.steps, visit.matcher⟩

@[simp] theorem pathFrom_under (path : Path) (parent : Template) (steps : List Path.Step)
    (visit : Visit) :
    (visit.under parent steps).pathFrom path = visit.pathFrom (path.follow steps) :=
  List.foldl_append

end Visit

def Place.visit? (place : Place) : Option Visit :=
  place.node.matcher?.map fun m => ⟨place.around, place.steps, m⟩

/-- The matchers of a template in the order of a walk. -/
def visits (t : Template) : List Visit := t.places.filterMap Place.visit?

def Visit.place (visit : Visit) : Place := ⟨visit.around, visit.steps, visit.matcher.toTemplate⟩

theorem Place.visit?_eq_some_iff {place : Place} {visit : Visit} :
    place.visit? = some visit ↔ place = visit.place := by
  rw [visit?, Option.map_eq_some_iff]
  constructor
  · rintro ⟨m, isMatcher, rfl⟩
    rw [Visit.place, ← matcher?_eq_some_iff.mp isMatcher]
  · rintro rfl
    exact ⟨visit.matcher, Matcher.matcher?_toTemplate visit.matcher, rfl⟩

theorem mem_visits_iff_place {t : Template} {visit : Visit} :
    visit ∈ t.visits ↔ visit.place ∈ t.places := by
  simp [visits, Place.visit?_eq_some_iff]

@[simp] theorem Place.visit?_under (parent : Template) (steps : List Path.Step) (place : Place) :
    (place.under parent steps).visit? = place.visit?.map (.under parent steps) := by
  simp [visit?, under, Visit.under, Function.comp_def]

theorem visits_eq (t : Template) :
    t.visits = (Place.here t).visit?.toList ++
      t.children.flatMap fun c => (visits c.2).map (.under t c.1) := by
  rw [visits, places_eq, List.filterMap_cons, List.filterMap_flatMap]
  have below : ∀ c : List Path.Step × Template,
      ((places c.2).map (.under t c.1)).filterMap Place.visit? =
        (visits c.2).map (.under t c.1) := by
    intro c
    rw [visits, List.filterMap_map, List.map_filterMap]
    congr 1
    funext place
    exact Place.visit?_under t c.1 place
  simp only [below]
  cases (Place.here t).visit? <;> rfl

theorem mem_visits {t : Template} {visit : Visit} :
    visit ∈ t.visits ↔ (Place.here t).visit? = some visit ∨
      ∃ c ∈ t.children, ∃ below ∈ visits c.2, visit = below.under t c.1 := by
  rw [visits_eq]
  simp [eq_comm]

end Template

end ContractFixture
