import ContractFixture.Proofs.Hint.Sample

/-!
# Positions of a schema

They are listed depth first. What a pointer points to has the annotation of the pointer; the
elements of a list have none.
-/

namespace ContractFixture.Schema

@[elab_as_elim, induction_eliminator]
theorem node_induction {motive : Schema → Prop}
    (pointer : ∀ target, motive target → motive (.pointer target))
    (sequence : ∀ element, motive element → motive (.sequence element))
    (array : ∀ element length, motive element → motive (.array element length))
    (record : ∀ name (fields : List (Field Schema)), (∀ f ∈ fields, motive f.type) →
      motive (.record name fields))
    (string : motive .string)
    (boolean : motive .boolean)
    (integer : ∀ width, motive (.integer width))
    (float : ∀ width, motive (.float width))
    (map : ∀ value, motive value → motive (.map value))
    (any : motive .any)
    (foreign : ∀ name, motive (.foreign name))
    (s : Schema) : motive s :=
  @Schema.rec motive (fun fields => ∀ f ∈ fields, motive f.type) (fun f => motive f.type)
    pointer sequence array record string boolean integer float map any foreign
    (fun _ member => absurd member List.not_mem_nil)
    (fun _ _ first others => List.forall_mem_cons.mpr ⟨first, others⟩)
    (fun _ _ _ _ type => type)
    s

/-! ## Annotations -/

/-- What an annotation says where the schema stands. Where no template can be made from the schema,
nothing is said. -/
def reading (s : Schema) (note : Option String) : Except HintError Hint :=
  match note, Hint.Target.ofSchema? s with
  | some text, some target => Hint.parse target text.toList
  | _, _ => .ok {}

@[simp] theorem reading_none (s : Schema) : s.reading none = .ok {} := rfl

theorem annotated_of_refused {s : Schema} {note : Option String} {cause : HintError}
    (h : s.reading note = .error cause) : ∃ text, note = some text := by
  cases note with
  | none => cases h
  | some text => exact ⟨text, rfl⟩

def said (s : Schema) (note : Option String) : Hint := (s.reading note).toOption.getD {}

theorem said_of_reading {s : Schema} {note : Option String} {hint : Hint}
    (h : s.reading note = .ok hint) : s.said note = hint := by
  rw [said, h]
  rfl

theorem suits_of_reading {s : Schema} {target : Hint.Target} {note : Option String}
    {hint : Hint} (kind : Hint.Target.ofSchema? s = some target)
    (read : s.reading note = .ok hint) : hint.Suits target := by
  cases note with
  | none =>
    cases read
    exact Hint.suits_nothing target
  | some text =>
    unfold reading at read
    rw [kind] at read
    exact Hint.suits_of_parse read

theorem sampleFits_said {s : Schema} {target : Hint.Target}
    (kind : Hint.Target.ofSchema? s = some target) (note : Option String) :
    (s.said note).SampleFits target := by
  cases read : s.reading note with
  | error cause =>
    rw [said, read]
    intro sample none
    cases none
  | ok hint =>
    rw [said_of_reading read]
    exact (suits_of_reading kind read).sample

/-! ## Positions -/

inductive Segment where
  | field (name : String)
  | element
deriving DecidableEq, Repr

def Segment.text : Segment → String
  | .field name => "." ++ name
  | .element => "[]"

/-- A node of a schema, the way that leads to it, and the annotation that holds there. -/
structure Position where
  way : List Segment
  note : Option String
  node : Schema

namespace Position

def here (note : Option String) (s : Schema) : Position := ⟨[], note, s⟩

def under (segment : Segment) (p : Position) : Position :=
  ⟨segment :: p.way, p.note, p.node⟩

def label (root : String) (p : Position) : String :=
  p.way.foldl (fun sofar segment => sofar ++ segment.text) root

end Position

mutual

/-- The positions of a schema at which this annotation holds. -/
def positionsFrom (note : Option String) : Schema → List Position
  | .pointer target => .here note (.pointer target) :: positionsFrom note target
  | .sequence element =>
    .here note (.sequence element) :: (positionsFrom none element).map (.under .element)
  | .array element length =>
    .here note (.array element length) :: (positionsFrom none element).map (.under .element)
  | .record name fields => .here note (.record name fields) :: fieldPositions fields
  | .string => [.here note .string]
  | .boolean => [.here note .boolean]
  | .integer width => [.here note (.integer width)]
  | .float width => [.here note (.float width)]
  | .map value => [.here note (.map value)]
  | .any => [.here note .any]
  | .foreign name => [.here note (.foreign name)]

def fieldPositions : List (Field Schema) → List Position
  | [] => []
  | ⟨name, _, type, hint⟩ :: rest =>
    (positionsFrom hint type).map (.under (.field name)) ++ fieldPositions rest

end

def positions (s : Schema) : List Position := positionsFrom none s

theorem fieldPositions_cons (f : Field Schema) (rest : List (Field Schema)) :
    fieldPositions (f :: rest) =
      (positionsFrom f.hint f.type).map (.under (.field f.name)) ++ fieldPositions rest := by
  rw [fieldPositions]

theorem mem_fieldPositions {fields : List (Field Schema)} {p : Position} :
    p ∈ fieldPositions fields ↔
      ∃ f ∈ fields, ∃ below ∈ positionsFrom f.hint f.type, p = below.under (.field f.name) := by
  induction fields with
  | nil => simp [fieldPositions]
  | cons f rest ih => simp [fieldPositions_cons, ih, eq_comm]

theorem exists_positionsFrom_eq_cons (note : Option String) (s : Schema) :
    ∃ below, positionsFrom note s = .here note s :: below := by
  cases s <;> exact ⟨_, by rw [positionsFrom]⟩

/-! ## Keys -/

def ownKeys : Schema → List String
  | .record _ fields => fields.map Field.key
  | _ => []

def keys (s : Schema) : List String := s.positions.flatMap (·.node.ownKeys)

end ContractFixture.Schema
