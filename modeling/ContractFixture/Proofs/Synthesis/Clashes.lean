import ContractFixture.Proofs.Synthesis.Rules

/-! # Fields with one key -/

namespace ContractFixture

/-! ## Clashes -/

namespace Schema

/-- A field of a record with the key of an earlier one. -/
structure Clash where
  record : String
  key : String
deriving DecidableEq, Repr

mutual

/-- The clashes in the type of a field come before its own. What a map holds is not looked at. -/
def clashes : Schema → List Clash
  | .pointer target => clashes target
  | .sequence element => clashes element
  | .array element _ => clashes element
  | .record name fields => fieldClashes name [] fields
  | .string | .boolean | .integer _ | .float _ | .map _ | .any | .foreign _ => []

def fieldClashes (record : String) (earlier : List String) : List (Field Schema) → List Clash
  | [] => []
  | ⟨name, wireName, type, _⟩ :: rest =>
    let key := wireName.getD name
    let own := if key ∈ earlier then [⟨record, key⟩] else []
    clashes type ++ own ++ fieldClashes record (key :: earlier) rest

end

theorem fieldClashes_cons (record : String) (earlier : List String) (f : Field Schema)
    (rest : List (Field Schema)) :
    fieldClashes record earlier (f :: rest) =
      f.type.clashes ++ (if f.key ∈ earlier then [⟨record, f.key⟩] else []) ++
        fieldClashes record (f.key :: earlier) rest := by
  rw [fieldClashes]
  rfl

theorem fieldClashes_eq_nil_iff {record : String} {earlier : List String}
    {fields : List (Field Schema)} :
    fieldClashes record earlier fields = [] ↔
      (∀ f ∈ fields, f.type.clashes = []) ∧ (fields.map Field.key).Nodup ∧
        ∀ f ∈ fields, f.key ∉ earlier := by
  induction fields generalizing earlier with
  | nil => simp [fieldClashes]
  | cons f rest ih =>
    rw [fieldClashes_cons]
    simp only [List.append_eq_nil_iff, ih, List.map_cons, List.nodup_cons, List.mem_map,
      List.mem_cons, not_or, ite_eq_right_iff, reduceCtorEq, imp_false]
    grind

theorem clashes_record_eq_nil_iff {name : String} {fields : List (Field Schema)} :
    (record name fields).clashes = [] ↔
      (∀ f ∈ fields, f.type.clashes = []) ∧ (fields.map Field.key).Nodup := by
  rw [clashes, fieldClashes_eq_nil_iff]
  simp

def keysFrom (note : Option String) (s : Schema) : List String :=
  (s.positionsFrom note).flatMap (·.node.ownKeys)

theorem flatMap_under_ownKeys (segment : Segment) (ps : List Position) :
    (ps.map (Position.under segment)).flatMap (fun p : Position => p.node.ownKeys) =
      ps.flatMap (·.node.ownKeys) := by
  rw [List.flatMap_map]
  rfl

theorem keysFrom_record_perm (note : Option String) (name : String)
    (fields : List (Field Schema)) :
    ((record name fields).keysFrom note).Perm
      (fields.flatMap fun f => f.key :: f.type.keysFrom f.hint) := by
  have below : (fieldPositions fields).flatMap (·.node.ownKeys) =
      fields.flatMap fun f => f.type.keysFrom f.hint := by
    induction fields with
    | nil => rfl
    | cons f rest ih =>
      rw [fieldPositions_cons, List.flatMap_append, flatMap_under_ownKeys, ih, List.flatMap_cons]
      rfl
  rw [keysFrom, positionsFrom, List.flatMap_cons, below]
  exact List.map_append_flatMap_perm ..

end Schema

/-! ## Entries -/

namespace Template

def ownEntries : Template → List (String × Template)
  | .object fields => fields
  | _ => []

/-- The entries of all objects in a template. -/
def objectEntries (t : Template) : List (String × Template) := t.places.flatMap (·.node.ownEntries)

theorem objectEntries_eq (t : Template) :
    t.objectEntries = t.ownEntries ++ t.children.flatMap fun c => objectEntries c.2 := by
  rw [objectEntries, places_eq, List.flatMap_cons, List.flatMap_assoc]
  simp only [List.flatMap_map]
  rfl

theorem objectEntries_of_no_keys {t : Template} (h : t.keys = []) : t.objectEntries = [] := by
  rw [keys, List.flatMap_eq_nil_iff] at h
  rw [objectEntries, List.flatMap_eq_nil_iff]
  intro place member
  have none := h place member
  cases node : place.node with
  | object fields =>
    rw [node] at none
    exact List.map_eq_nil_iff.mp none
  | _ => rfl

theorem objectEntries_each (contents : Template) (min max : UInt64) :
    (each contents min max).objectEntries = contents.objectEntries := by
  rw [objectEntries_eq]
  simp [ownEntries, children]

theorem objectEntries_object_perm (fields : List (String × Template)) :
    (object fields).objectEntries.Perm (fields.flatMap fun e => e :: e.2.objectEntries) := by
  rw [objectEntries_eq, ownEntries, children, List.flatMap_map]
  simpa using List.map_append_flatMap_perm fields id fun e => e.2.objectEntries

end Template

/-! ## Entries that are lost -/

namespace Synthesis

variable {note : Option String} {s : Schema} {t : Template}

theorem length_flatMap_le {α β γ : Type} {items : List α} {f : α → List β} {g : α → List γ}
    (le : ∀ x ∈ items, (f x).length ≤ (g x).length) :
    (items.flatMap f).length ≤ (items.flatMap g).length ∧
      ((items.flatMap f).length = (items.flatMap g).length ↔
        ∀ x ∈ items, (f x).length = (g x).length) := by
  induction items with
  | nil => simp
  | cons x rest ih =>
    obtain ⟨first, others⟩ := List.forall_mem_cons.mp le
    obtain ⟨le, same⟩ := ih others
    rw [List.forall_mem_cons, ← same]
    simp only [List.flatMap_cons, List.length_append]
    omega

/-- The objects of the template have an entry for each field of the schema, unless fields clash. -/
structure Covers (note : Option String) (s : Schema) (t : Template) : Prop where
  le : t.objectEntries.length ≤ (s.keysFrom note).length
  eq_iff : t.objectEntries.length = (s.keysFrom note).length ↔ s.clashes = []

theorem covers_leaf {rule : Rule} (leaf : Leaf t rule) (noKeys : s.keysFrom note = [])
    (noClashes : s.clashes = []) : Covers note s t := by
  have noEntries := Template.objectEntries_of_no_keys leaf.keys
  constructor
  · simp [noEntries]
  · simp [noEntries, noKeys, noClashes]

theorem covers_each {list element : Schema} {contents : Template} {min : UInt64}
    (keys : list.keysFrom note = element.keysFrom none) (clashes : list.clashes = element.clashes)
    (h : Covers none element contents) : Covers note list (.each contents min 0) := by
  obtain ⟨le, same⟩ := h
  constructor
  · rwa [Template.objectEntries_each, keys]
  · rwa [Template.objectEntries_each, keys, clashes]

theorem covers_record {name : String} {fields : List (Field Schema)}
    {template : Field Schema → Template}
    (each : ∀ f ∈ fields, Covers f.hint f.type (template f)) :
    Covers note (.record name fields)
      (.object (Keyed.ofList (fields.map fun f => (f.key, template f)))) := by
  let entries := fields.map fun f => (f.key, template f)
  let whole := fun e : String × Template => e :: e.2.objectEntries
  have made : (Template.object (Keyed.ofList entries)).objectEntries.length =
      ((Keyed.ofList entries).flatMap whole).length :=
    (Template.objectEntries_object_perm _).length_eq
  have told := (Schema.keysFrom_record_perm note name fields).length_eq
  have keys : entries.map (·.1) = fields.map Field.key := List.map_map
  have shorter : ∀ f ∈ fields, (whole (f.key, template f)).length ≤
      (f.key :: f.type.keysFrom f.hint).length :=
    fun f member => Nat.succ_le_succ (each f member).le
  have types : ∀ f ∈ fields, ((whole (f.key, template f)).length =
      (f.key :: f.type.keysFrom f.hint).length ↔ f.type.clashes = []) :=
    fun f member => Nat.succ_inj.trans (each f member).eq_iff
  -- Entries are lost within the fields, and then where fields of the record clash.
  obtain ⟨within, allWithin⟩ := length_flatMap_le shorter
  have nonempty : ∀ e, whole e ≠ [] := fun e => List.cons_ne_nil _ _
  obtain ⟨kept, allKept⟩ := Keyed.length_flatMap_ofList nonempty entries
  rw [List.flatMap_map] at kept allKept
  rw [keys] at allKept
  rw [forall₂_congr types] at allWithin
  constructor
  · rw [made, told]
    exact Nat.le_trans kept within
  · rw [made, told, Schema.clashes_record_eq_nil_iff, ← allWithin, ← allKept]
    omega

/-- An entry is lost wherever fields clash, and nowhere else. -/
theorem Made.covers {d : Defaults} (made : Made d note s t) : Covers note s t := by
  induction made with
  | pointer _ ih => exact ⟨ih.le, ih.eq_iff⟩
  | sequence _ ih => exact covers_each (Schema.flatMap_under_ownKeys ..) rfl ih
  | array _ ih => exact covers_each (Schema.flatMap_under_ownKeys ..) rfl ih
  | record _ ih => exact covers_record ih
  | string => exact covers_leaf (leaf_string _) rfl rfl
  | boolean => exact covers_leaf (leaf_boolean _) rfl rfl
  | integer made => exact covers_leaf (leaf_integer made) rfl rfl
  | float => exact covers_leaf (leaf_float _) rfl rfl

end Synthesis

end ContractFixture
