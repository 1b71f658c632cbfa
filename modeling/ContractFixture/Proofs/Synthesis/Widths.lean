import Mathlib.Logic.Relation
import ContractFixture.Proofs.Synthesis.Made

/-! # Widths of examples -/

namespace ContractFixture

namespace Synthesis

/-! ## What stands where -/

structure Standing where
  note : Option String
  node : Schema
  template : Template

namespace Standing

/-- One step down from a node of a schema, and down from its template where that has a step. -/
inductive Below : Standing → Standing → Prop
  | pointer {note : Option String} {target : Schema} {t : Template} :
      Below ⟨note, .pointer target, t⟩ ⟨note, target, t⟩
  | sequence {note : Option String} {element : Schema} {contents : Template} {min max : UInt64} :
      Below ⟨note, .sequence element, .each contents min max⟩ ⟨none, element, contents⟩
  | array {note : Option String} {element : Schema} {length : UInt64} {contents : Template}
      {min max : UInt64} :
      Below ⟨note, .array element length, .each contents min max⟩ ⟨none, element, contents⟩
  | field {note : Option String} {name key : String} {fields : List (Field Schema)}
      {entries : List (String × Template)} {f : Field Schema} {t : Template}
      (last : (fields.filter (·.key = key)).getLast? = some f)
      (found : Keyed.get? key entries = some t) :
      Below ⟨note, .record name fields, .object entries⟩ ⟨f.hint, f.type, t⟩

def IsMade (d : Defaults) (a : Standing) : Prop := Made d a.note a.node a.template

theorem IsMade.below {d : Defaults} {a b : Standing} (made : a.IsMade d) (step : Below a b) :
    b.IsMade d := by
  cases step <;> dsimp only [IsMade] at made ⊢
  case pointer =>
    cases made with
    | pointer made => exact made
  case sequence =>
    cases made with
    | sequence made => exact made
  case array =>
    cases made with
    | array made => exact made
  case field last found =>
    cases made with
    | record made =>
      obtain ⟨isField, rfl⟩ := entry_of_last_field last found
      exact made _ isField

theorem IsMade.within {d : Defaults} {a b : Standing} (made : a.IsMade d)
    (steps : Relation.ReflTransGen Below a b) : b.IsMade d := by
  induction steps with
  | refl => exact made
  | tail _ step ih => exact ih.below step

end Standing

end Synthesis

open Synthesis

theorem Defaults.validate_eq_ok_iff {d : Defaults} :
    d.validate = .ok () ↔ Text.isAllBlank d.string.toList = false ∧ d.float.isFinite = true := by
  unfold validate
  cases Text.isAllBlank d.string.toList <;> cases d.float.isFinite <;> simp

/-- The integers in a template lie within their widths. So do its floats, but for the default in the
place of a single precision float that it exceeds. -/
theorem Schema.example_within_width {s : Schema} {d : Defaults} {t : Template} {a : Standing}
    (valid : d.validate = .ok ()) (made : s.template d = .ok t)
    (stands : Relation.ReflTransGen Standing.Below ⟨none, s, t⟩ a) :
    (∀ width, a.node = .integer width →
      ∃ n, a.template = likeJson (.int n) ∧ width.contains n = true) ∧
    ∀ width, a.node = .float width →
      ∃ x, a.template = likeJson (.ofFloat x) ∧
        ((a.node.said a.note).sample = none → x = d.float) ∧
        (width.contains x = true ↔ (a.node.said a.note).sample.isSome = true ∨ width = .f64 ∨
          FloatWidth.f32.contains d.float = true) := by
  obtain ⟨note, node, part⟩ := a
  have start : Standing.IsMade d ⟨none, s, t⟩ := made_of_template made
  have made : Made d note node part := start.within stands
  constructor
  · rintro width rfl
    cases made with
    | integer made => exact integerTemplate_within (sampleFits_said rfl note) made
  · rintro width rfl
    cases made with
    | float =>
      obtain ⟨x, isLike, origin⟩ := floatTemplate_eq d ((Schema.float width).said note)
      refine ⟨x, isLike, ?_⟩
      rcases origin with sampled | ⟨other, rfl⟩
      · have within : width.contains x = true := by
          cases sampleFits_said rfl note _ sampled with
          | float _ within => exact within
        simp [sampled, within]
      · have none : ((Schema.float width).said note).sample = none := by
          cases sampled : ((Schema.float width).said note).sample with
          | none => rfl
          | some sample =>
            cases sampleFits_said rfl note _ sampled with
            | float => exact absurd sampled (other _)
        have finite : FloatWidth.f64.contains d.float = true :=
          (Defaults.validate_eq_ok_iff.mp valid).2
        cases width <;> simp [none, finite]

theorem Schema.example_within_single :
    ({} : Defaults).validate = .ok () ∧ ∃ t,
      (Schema.pointer (.sequence (.float .f32))).template {} = .ok t ∧
      Relation.ReflTransGen Standing.Below ⟨none, .pointer (.sequence (.float .f32)), t⟩
        ⟨none, .float .f32, likeJson (.ofFloat 1.1)⟩ ∧
      ∃ x, likeJson (.ofFloat 1.1) = likeJson (.ofFloat x) ∧ FloatWidth.f32.contains x = true := by
  have valid : ({} : Defaults).validate = .ok () :=
    Defaults.validate_eq_ok_iff.mpr ⟨by decide +kernel, by decide +kernel⟩
  have stands : Relation.ReflTransGen Standing.Below
      ⟨none, .pointer (.sequence (.float .f32)), .each (likeJson (.ofFloat 1.1)) 1 0⟩
      ⟨none, .float .f32, likeJson (.ofFloat 1.1)⟩ :=
    (Relation.ReflTransGen.single .pointer).tail .sequence
  obtain ⟨x, isLike, -, within⟩ := (Schema.example_within_width valid rfl stands).2 .f32 rfl
  exact ⟨valid, _, rfl, stands, x, isLike, within.mpr (Or.inr (Or.inr (by decide +kernel)))⟩

theorem Schema.example_beyond_width :
    ({ float := 1e300 } : Defaults).validate = .ok () ∧
      (Schema.float .f32).template { float := 1e300 } = .ok (likeJson (.ofFloat 1e300)) ∧
      FloatWidth.f32.contains 1e300 = false :=
  ⟨Defaults.validate_eq_ok_iff.mpr ⟨by decide +kernel, by decide +kernel⟩, rfl, by decide +kernel⟩

end ContractFixture
