import ContractFixture.Proofs.Schema.Positions
import ContractFixture.Synthesis.Basic

/-!
# Pointers make no difference

They are looked through where a message names a schema, where the grammar of an annotation is
chosen, and on the walk. All three agree.
-/

namespace ContractFixture

namespace Schema

/-! ## Schemas without pointers -/

mutual

/-- The schema with what they point to in place of all its pointers. -/
def erased : Schema → Schema
  | .pointer target => erased target
  | .sequence element => .sequence (erased element)
  | .array element length => .array (erased element) length
  | .record name fields => .record name (erasedFields fields)
  | .map value => .map (erased value)
  | leaf => leaf

def erasedFields : List (Field Schema) → List (Field Schema)
  | [] => []
  | ⟨name, wireName, type, hint⟩ :: rest =>
    ⟨name, wireName, erased type, hint⟩ :: erasedFields rest

end

theorem erasedFields_eq (fields : List (Field Schema)) :
    erasedFields fields = fields.map fun f => { f with type := f.type.erased } := by
  induction fields with
  | nil => rfl
  | cons f rest ih => rw [erasedFields, ih, List.map_cons]

theorem not_pointer_of_erased (s : Schema) (note : Option String) :
    ∀ p ∈ positionsFrom note s.erased, p.node.kind ≠ .pointer := by
  induction s generalizing note with
  | pointer target ih =>
    rw [erased]
    exact ih note
  | sequence element ih | array element _ ih =>
    rw [erased, positionsFrom]
    refine List.forall_mem_cons.mpr ⟨by simp [Position.here, kind], fun _ moved => ?_⟩
    obtain ⟨p, member, rfl⟩ := List.mem_map.mp moved
    exact ih none p member
  | record name fields ih =>
    rw [erased, positionsFrom, erasedFields_eq]
    refine List.forall_mem_cons.mpr ⟨by simp [Position.here, kind], fun _ below => ?_⟩
    obtain ⟨_, moved, p, member, rfl⟩ := mem_fieldPositions.mp below
    obtain ⟨f, isField, rfl⟩ := List.mem_map.mp moved
    exact ih f isField f.hint p member
  | string | boolean | integer _ | float _ | map _ _ | any | foreign _ =>
    simp [erased, positionsFrom, Position.here, kind]

/-! ## What is looked at behind a pointer -/

theorem ofSchema?_erased (s : Schema) :
    Hint.Target.ofSchema? s.erased = Hint.Target.ofSchema? s := by
  induction s with
  | pointer target ih => exact ih
  | _ => rfl

theorem rootLabel_erased (s : Schema) : s.erased.rootLabel = s.rootLabel := by
  induction s with
  | pointer target ih => exact ih
  | _ => rfl

end Schema

/-! ## The walk -/

namespace Synthesis

variable {d : Defaults}

theorem fieldHint_erased (path : String) (type : Schema) (note : Option String) :
    fieldHint path type.erased note = fieldHint path type note := by
  unfold fieldHint
  rw [Schema.ofSchema?_erased]

theorem fieldTemplates_erased {fields : List (Field Schema)}
    (types : ∀ f ∈ fields, ∀ hint path,
      templateAt d hint path f.type.erased = templateAt d hint path f.type)
    (record path : String) (sofar : List (String × Template)) :
    fieldTemplates d record path sofar (Schema.erasedFields fields) =
      fieldTemplates d record path sofar fields := by
  induction fields generalizing sofar with
  | nil => rw [Schema.erasedFields]
  | cons f rest ih =>
    obtain ⟨first, others⟩ := List.forall_mem_cons.mp types
    rw [Schema.erasedFields, fieldTemplates, fieldTemplates]
    simp only [fieldHint_erased, first, ih others]

theorem templateAt_erased (s : Schema) (hint : Hint) (path : String) :
    templateAt d hint path s.erased = templateAt d hint path s := by
  induction s generalizing hint path with
  | pointer target ih =>
    rw [Schema.erased, templateAt]
    exact ih hint path
  | sequence element ih | array element _ ih =>
    rw [Schema.erased, templateAt, templateAt, ih]
  | record name fields ih =>
    have length : (Schema.erasedFields fields).length = fields.length := by
      rw [Schema.erasedFields_eq, List.length_map]
    rw [Schema.erased, templateAt, templateAt, fieldTemplates_erased ih, length]
  | map value _ =>
    -- What a map holds is not looked at, and it is called a map all the same.
    rw [Schema.erased, templateAt, templateAt]
    rfl
  | string | boolean | integer _ | float _ | any | foreign _ => rfl

end Synthesis

open Synthesis

theorem Schema.synthesis_erased (s : Schema) (d : Defaults) :
    s.erased.synthesis d = s.synthesis d := by
  rw [synthesis, synthesis, rootLabel_erased, templateAt_erased]

/-- Without its pointers a schema has the same template, or fails with the same error. -/
theorem Schema.template_erased (s : Schema) (d : Defaults) :
    (∀ p ∈ s.erased.positions, p.node.kind ≠ .pointer) ∧ s.erased.template d = s.template d := by
  refine ⟨s.not_pointer_of_erased none, ?_⟩
  rw [template, template, synthesis_erased]

end ContractFixture
