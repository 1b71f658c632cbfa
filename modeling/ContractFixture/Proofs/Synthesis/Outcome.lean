import ContractFixture.Proofs.Schema.Positions
import ContractFixture.Synthesis.Basic

/-! # What the walk over a schema gives -/

namespace ContractFixture.Synthesis

/-! ## Leaves -/

theorem integerTemplate_eq_ok {d : Defaults} {hint : Hint} {path : String} {width : IntegerWidth}
    {t : Template} (h : integerTemplate d hint path width = .ok t) :
    ∃ n, t = likeJson (.int n) ∧ (hint.sample = some (.integer n) ∨ width.contains n = true) := by
  unfold integerTemplate at h
  split at h
  · rename_i n sampled
    cases h
    exact ⟨n, rfl, Or.inl sampled⟩
  · split at h
    · rename_i within
      cases h
      exact ⟨d.integer, rfl, Or.inr within⟩
    · cases h

/-- The default is not checked against the width of the float. -/
theorem floatTemplate_eq (d : Defaults) (hint : Hint) :
    ∃ x, floatTemplate d hint = likeJson (.ofFloat x) ∧
      (hint.sample = some (.float x) ∨ (∀ y, hint.sample ≠ some (.float y)) ∧ x = d.float) := by
  unfold floatTemplate
  split
  · rename_i x sampled
    exact ⟨x, rfl, Or.inl sampled⟩
  · rename_i other
    exact ⟨d.float, rfl, Or.inr ⟨other, rfl⟩⟩

/-! ## Fields -/

theorem fieldHint_eq (path : String) (type : Schema) (note : Option String) :
    fieldHint path type note =
      (type.reading note).mapError (.invalidHint path (note.getD "")) := by
  unfold fieldHint Schema.reading
  cases note with
  | none => rfl
  | some text => cases Hint.Target.ofSchema? type <;> rfl

theorem reading_of_fieldHint {path : String} {type : Schema} {note : Option String} {hint : Hint}
    (h : fieldHint path type note = .ok hint) : type.reading note = .ok hint := by
  rw [fieldHint_eq] at h
  cases read : type.reading note with
  | error cause =>
    rw [read] at h
    cases h
  | ok said =>
    rw [read] at h
    cases h
    rfl

/-- The template for a field of a record at `path`. -/
def fieldTemplate (d : Defaults) (path : String) (f : Field Schema) :
    Except SynthesisError Template :=
  (fieldHint (path ++ "." ++ f.name) f.type f.hint).bind fun hint =>
    (templateAt d hint (path ++ "." ++ f.name) f.type).outcome

theorem fieldTemplate_of_fieldHint {d : Defaults} {path : String} {f : Field Schema} {hint : Hint}
    (h : fieldHint (path ++ "." ++ f.name) f.type f.hint = .ok hint) :
    fieldTemplate d path f = (templateAt d hint (path ++ "." ++ f.name) f.type).outcome := by
  rw [fieldTemplate, h]
  rfl

theorem outcome_fieldTemplates_nil (d : Defaults) (record path : String)
    (sofar : List (String × Template)) :
    (fieldTemplates d record path sofar []).outcome = .ok sofar := rfl

/-- The templates that were made before decide what is reported, but not what is made. -/
theorem outcome_fieldTemplates_cons (d : Defaults) (record path : String)
    (sofar : List (String × Template)) (f : Field Schema) (rest : List (Field Schema)) :
    (fieldTemplates d record path sofar (f :: rest)).outcome =
      (fieldTemplate d path f).bind fun t =>
        (fieldTemplates d record path (Keyed.insert f.key t sofar) rest).outcome := by
  rw [fieldTemplates, fieldTemplate]
  simp only [Traced.outcome_bind, Traced.outcome_silent]
  cases fieldHint (path ++ "." ++ f.name) f.type f.hint with
  | error e => rfl
  | ok hint =>
    simp only [Except.bind]
    cases (templateAt d hint (path ++ "." ++ f.name) f.type).outcome with
    | error e => rfl
    | ok t =>
      simp only
      split <;> rfl

/-! ## Nodes -/

variable (d : Defaults) (hint : Hint) (path : String)

theorem outcome_pointer (target : Schema) :
    (templateAt d hint path (.pointer target)).outcome =
      (templateAt d hint path target).outcome := by
  rw [templateAt]

theorem outcome_sequence (element : Schema) :
    (templateAt d hint path (.sequence element)).outcome =
      (templateAt d {} (path ++ "[]") element).outcome.map
        (.each · (hint.min.getD d.minItems) 0) := by
  rw [templateAt, Traced.outcome_bind]
  rfl

theorem outcome_array (element : Schema) (length : UInt64) :
    (templateAt d hint path (.array element length)).outcome =
      (templateAt d {} (path ++ "[]") element).outcome.map
        (.each · (hint.min.getD d.minItems) 0) := by
  rw [templateAt, Traced.outcome_bind]
  rfl

theorem outcome_record (name : String) (fields : List (Field Schema)) :
    (templateAt d hint path (.record name fields)).outcome =
      (fieldTemplates d name path [] fields).outcome.map .object := by
  rw [templateAt]
  simp only [Traced.outcome_bind, Traced.outcome_report]
  rfl

theorem outcome_integer (width : IntegerWidth) :
    (templateAt d hint path (.integer width)).outcome = integerTemplate d hint path width := by
  rw [templateAt, Traced.outcome_silent]

theorem outcome_unsupported {s : Schema} (h : s.kind = .map ∨ s.kind = .any ∨ s.kind = .foreign) :
    (templateAt d hint path s).outcome = .error (.unsupported path s.kindLabel) := by
  cases s with
  | map _ | any | foreign _ => rw [templateAt, Traced.outcome_silent]
  | _ => simp [Schema.kind] at h

end ContractFixture.Synthesis
