import ContractFixture.Proofs.Synthesis.Outcome

/-! # Why synthesis fails -/

namespace ContractFixture

namespace Schema

def Unsupported (s : Schema) : Prop := s.kind = .map ∨ s.kind = .any ∨ s.kind = .foreign

theorem not_unsupported_integer (width : IntegerWidth) : ¬ (integer width).Unsupported := by
  simp [Unsupported, kind]

theorem reading_of_unsupported {s : Schema} (h : s.Unsupported) (note : Option String) :
    s.reading note = .ok {} := by
  cases s with
  | map _ | any | foreign _ => cases note <;> rfl
  | _ => simp [Unsupported, kind] at h

namespace Position

/-! ## Faults of one position -/

/-- The annotation at the position can be read, and it gives no example. -/
def WithoutExample (p : Position) : Prop :=
  ∃ hint, p.node.reading p.note = .ok hint ∧ hint.sample = none

/-- Nothing at the position itself stands against a template. -/
structure Admissible (d : Defaults) (p : Position) : Prop where
  supported : ¬ p.node.Unsupported
  readable : ∃ hint, p.node.reading p.note = .ok hint
  inWidth : ∀ width, p.node = .integer width → p.WithoutExample →
    width.low ≤ d.integer ∧ d.integer ≤ width.high

inductive Fault (d : Defaults) (root : String) (p : Position) : SynthesisError → Prop
  | unsupported (kind : p.node.Unsupported) :
      Fault d root p (.unsupported (p.label root) p.node.kindLabel)
  | invalidHint {text : String} {cause : HintError} (annotated : p.note = some text)
      (refused : p.node.reading p.note = .error cause) :
      Fault d root p (.invalidHint (p.label root) text cause)
  | defaultOutOfRange {width : IntegerWidth} (isInteger : p.node = .integer width)
      (unannotated : p.WithoutExample)
      (outside : ¬ (width.low ≤ d.integer ∧ d.integer ≤ width.high)) :
      Fault d root p (.defaultOutOfRange (p.label root) d.integer width)

theorem not_unsupported_of_refused {p : Position} {cause : HintError}
    (refused : p.node.reading p.note = .error cause) : ¬ p.node.Unsupported := by
  intro h
  rw [reading_of_unsupported h] at refused
  cases refused

theorem not_withoutExample_of_refused {p : Position} {cause : HintError}
    (refused : p.node.reading p.note = .error cause) : ¬ p.WithoutExample := by
  rintro ⟨hint, read, -⟩
  rw [read] at refused
  cases refused

theorem Fault.not_admissible {d : Defaults} {root : String} {p : Position} {e : SynthesisError}
    (fault : p.Fault d root e) : ¬ p.Admissible d := by
  intro admissible
  cases fault with
  | unsupported kind => exact admissible.supported kind
  | invalidHint annotated refused =>
    obtain ⟨hint, read⟩ := admissible.readable
    rw [read] at refused
    cases refused
  | defaultOutOfRange isInteger unannotated outside =>
    exact outside (admissible.inWidth _ isInteger unannotated)

theorem Fault.unique {d : Defaults} {root : String} {p : Position} {e e' : SynthesisError}
    (fault : p.Fault d root e) (fault' : p.Fault d root e') : e = e' := by
  have apart : ∀ {width}, p.node = .integer width → ¬ p.node.Unsupported := fun isInteger =>
    isInteger ▸ not_unsupported_integer _
  cases fault with
  | unsupported kind =>
    cases fault' with
    | unsupported _ => rfl
    | invalidHint _ refused => exact absurd kind (not_unsupported_of_refused refused)
    | defaultOutOfRange isInteger _ _ => exact absurd kind (apart isInteger)
  | invalidHint annotated refused =>
    cases fault' with
    | unsupported kind => exact absurd kind (not_unsupported_of_refused refused)
    | invalidHint annotated' refused' =>
      obtain rfl := Option.some.inj (annotated.symm.trans annotated')
      obtain rfl := Except.error.inj (refused.symm.trans refused')
      rfl
    | defaultOutOfRange _ unannotated _ =>
      exact absurd unannotated (not_withoutExample_of_refused refused)
  | defaultOutOfRange isInteger unannotated outside =>
    cases fault' with
    | unsupported kind => exact absurd kind (apart isInteger)
    | invalidHint _ refused => exact absurd unannotated (not_withoutExample_of_refused refused)
    | defaultOutOfRange isInteger' _ _ =>
      obtain rfl := Schema.integer.inj (isInteger.symm.trans isInteger')
      rfl

theorem Admissible.under {d : Defaults} {p : Position} (h : p.Admissible d) (segment : Segment) :
    (p.under segment).Admissible d := ⟨h.supported, h.readable, h.inWidth⟩

theorem Fault.under {d : Defaults} {root : String} {segment : Segment} {p : Position}
    {e : SynthesisError} (fault : p.Fault d (root ++ segment.text) e) :
    (p.under segment).Fault d root e := by
  cases fault with
  | unsupported kind => exact .unsupported kind
  | invalidHint annotated refused => exact .invalidHint annotated refused
  | defaultOutOfRange isInteger unannotated outside =>
    exact .defaultOutOfRange isInteger unannotated outside

/-! ## The first fault -/

/-- Of these positions the first that is at fault has this one. -/
def FirstFault (d : Defaults) (root : String) (ps : List Position) (e : SynthesisError) : Prop :=
  ∃ before p after, ps = before ++ p :: after ∧ (∀ q ∈ before, q.Admissible d) ∧ p.Fault d root e

theorem FirstFault.cons {d : Defaults} {root : String} {p : Position} {ps : List Position}
    {e : SynthesisError} (admissible : p.Admissible d) (h : FirstFault d root ps e) :
    FirstFault d root (p :: ps) e := by
  obtain ⟨before, q, after, rfl, admissibles, fault⟩ := h
  exact ⟨p :: before, q, after, rfl, List.forall_mem_cons.mpr ⟨admissible, admissibles⟩, fault⟩

theorem FirstFault.not_admissible {d : Defaults} {root : String} {ps : List Position}
    {e : SynthesisError} (h : FirstFault d root ps e) : ¬ ∀ p ∈ ps, p.Admissible d := by
  obtain ⟨before, p, after, rfl, -, fault⟩ := h
  intro all
  exact fault.not_admissible (all p (by simp))

theorem FirstFault.unique {d : Defaults} {root : String} {ps : List Position}
    {e e' : SynthesisError} (h : FirstFault d root ps e) (h' : FirstFault d root ps e') :
    e = e' := by
  induction ps with
  | nil =>
    obtain ⟨before, p, after, none, -⟩ := h
    simp at none
  | cons p rest ih =>
    obtain ⟨before, q, after, split, admissible, fault⟩ := h
    obtain ⟨before', q', after', split', admissible', fault'⟩ := h'
    -- The head of the list is at fault in both, or it is admissible in both.
    cases before with
    | nil =>
      obtain ⟨rfl, rfl⟩ := List.cons.inj split
      cases before' with
      | nil =>
        obtain ⟨rfl, -⟩ := List.cons.inj split'
        exact fault.unique fault'
      | cons first _ =>
        obtain ⟨rfl, -⟩ := List.cons.inj split'
        exact absurd (admissible' _ (List.mem_cons_self ..)) fault.not_admissible
    | cons first before =>
      obtain ⟨rfl, rest_eq⟩ := List.cons.inj split
      cases before' with
      | nil =>
        obtain ⟨rfl, -⟩ := List.cons.inj split'
        exact absurd (admissible _ (List.mem_cons_self ..)) fault'.not_admissible
      | cons first' before' =>
        obtain ⟨-, rest_eq'⟩ := List.cons.inj split'
        exact ih ⟨before, q, after, rest_eq, (List.forall_mem_cons.mp admissible).2, fault⟩
          ⟨before', q', after', rest_eq', (List.forall_mem_cons.mp admissible').2, fault'⟩

/-! ## Computations over positions -/

/-- A computation over these positions succeeds if all of them are admissible, and else fails with
the first fault. -/
def Answers {α : Type} (d : Defaults) (root : String) (ps : List Position) :
    Except SynthesisError α → Prop
  | .ok _ => ∀ p ∈ ps, p.Admissible d
  | .error e => FirstFault d root ps e

variable {α β : Type} {d : Defaults} {root : String} {ps qs : List Position}

theorem Answers.nil (value : α) : Answers d root [] (.ok value) := by
  intro p member
  simp at member

theorem Answers.cons {p : Position} {o : Except SynthesisError α} (admissible : p.Admissible d)
    (h : Answers d root ps o) : Answers d root (p :: ps) o := by
  cases o with
  | ok value => exact List.forall_mem_cons.mpr ⟨admissible, h⟩
  | error e => exact FirstFault.cons admissible h

theorem Answers.fault {p : Position} {e : SynthesisError} (fault : p.Fault d root e) :
    Answers d root (p :: ps) (.error e : Except SynthesisError α) :=
  ⟨[], p, ps, rfl, by simp, fault⟩

theorem Answers.map {o : Except SynthesisError α} (h : Answers d root ps o) (f : α → β) :
    Answers d root ps (o.map f) := by
  cases o <;> exact h

theorem Answers.bind {o : Except SynthesisError α} {next : α → Except SynthesisError β}
    (first : Answers d root ps o) (second : ∀ value, Answers d root qs (next value)) :
    Answers d root (ps ++ qs) (o.bind next) := by
  cases o with
  | ok value =>
    show Answers d root (ps ++ qs) (next value)
    cases h : next value with
    | ok result =>
      have later : Answers d root qs (.ok result) := h ▸ second value
      exact List.forall_mem_append.mpr ⟨first, later⟩
    | error e =>
      have later : Answers d root qs (.error e) := h ▸ second value
      obtain ⟨before, p, after, rfl, admissible, fault⟩ := later
      refine ⟨ps ++ before, p, after, by simp, ?_, fault⟩
      exact List.forall_mem_append.mpr ⟨first, admissible⟩
  | error e =>
    obtain ⟨before, p, after, rfl, admissible, fault⟩ := first
    exact ⟨before, p, after ++ qs, by simp, admissible, fault⟩

theorem Answers.under (segment : Segment) {o : Except SynthesisError α}
    (h : Answers d (root ++ segment.text) ps o) :
    Answers d root (ps.map (.under segment)) o := by
  cases o with
  | ok value =>
    intro _ moved
    obtain ⟨p, member, rfl⟩ := List.mem_map.mp moved
    exact (h p member).under segment
  | error e =>
    obtain ⟨before, p, after, rfl, admissible, fault⟩ := h
    refine ⟨before.map (.under segment), p.under segment, after.map (.under segment), by simp, ?_,
      fault.under⟩
    intro _ moved
    obtain ⟨q, member, rfl⟩ := List.mem_map.mp moved
    exact (admissible q member).under segment

end Position

end Schema

/-! ## The walk -/

namespace Synthesis

open Schema Schema.Position

variable {d : Defaults}

theorem admissible_here {s : Schema} {note : Option String} {hint : Hint}
    (read : s.reading note = .ok hint) (supported : ¬ s.Unsupported)
    (noInteger : ∀ width, s ≠ .integer width) : (Position.here note s).Admissible d where
  supported := supported
  readable := ⟨hint, read⟩
  inWidth width isInteger := absurd isInteger (noInteger width)

theorem admissible_integer {width : IntegerWidth} {note : Option String} {hint : Hint}
    (read : (Schema.integer width).reading note = .ok hint)
    (inWidth : hint.sample = none → width.contains d.integer = true) :
    (here note (.integer width)).Admissible d where
  supported := not_unsupported_integer width
  readable := ⟨hint, read⟩
  inWidth _ isInteger unannotated := by
    obtain ⟨other, read', none⟩ := unannotated
    obtain rfl := Except.ok.inj (read.symm.trans read')
    obtain rfl := Schema.integer.inj isInteger
    exact IntegerWidth.contains_iff.mp (inWidth none)

theorem integerTemplate_answers {width : IntegerWidth} {note : Option String} {hint : Hint}
    (read : (Schema.integer width).reading note = .ok hint) (path : String) :
    Answers d path [.here note (.integer width)] (integerTemplate d hint path width) := by
  unfold integerTemplate
  cases sampled : hint.sample with
  | none =>
    by_cases within : width.contains d.integer = true
    · rw [if_pos within]
      exact .cons (admissible_integer read fun _ => within) (.nil _)
    · rw [if_neg within]
      refine .fault (.defaultOutOfRange rfl ⟨hint, read, sampled⟩ ?_)
      rwa [← IntegerWidth.contains_iff]
  | some sample =>
    -- What the annotation gives for an integer is an integer.
    cases (suits_of_reading rfl read).sample sample sampled
    refine .cons (admissible_integer read fun none => ?_) (.nil _)
    rw [sampled] at none
    cases none

theorem fieldTemplate_answers {f : Field Schema}
    (type : ∀ hint, f.type.reading f.hint = .ok hint → ∀ path,
      Answers d path (positionsFrom f.hint f.type) (templateAt d hint path f.type).outcome)
    (path : String) :
    Answers d path ((positionsFrom f.hint f.type).map (.under (.field f.name)))
      (fieldTemplate d path f) := by
  apply Answers.under
  rw [fieldTemplate, fieldHint_eq, String.append_assoc]
  cases read : f.type.reading f.hint with
  | ok hint => exact type hint read _
  | error cause =>
    obtain ⟨below, first⟩ := exists_positionsFrom_eq_cons f.hint f.type
    obtain ⟨text, annotated⟩ := annotated_of_refused read
    rw [first, annotated]
    exact .fault (.invalidHint rfl (annotated ▸ read))

theorem fieldTemplates_answer {fields : List (Field Schema)}
    (types : ∀ f ∈ fields, ∀ hint, f.type.reading f.hint = .ok hint → ∀ path,
      Answers d path (positionsFrom f.hint f.type) (templateAt d hint path f.type).outcome)
    (record path : String) (sofar : List (String × Template)) :
    Answers d path (fieldPositions fields) (fieldTemplates d record path sofar fields).outcome := by
  induction fields generalizing sofar with
  | nil =>
    rw [fieldPositions, outcome_fieldTemplates_nil]
    exact .nil sofar
  | cons f rest ih =>
    rw [fieldPositions_cons, outcome_fieldTemplates_cons]
    obtain ⟨first, others⟩ := List.forall_mem_cons.mp types
    exact (fieldTemplate_answers first path).bind fun t => ih others _

/-- Where an annotation can be read, the walk below it answers for all positions. -/
theorem templateAt_answers (s : Schema) {note : Option String} {hint : Hint}
    (read : s.reading note = .ok hint) (path : String) :
    Answers d path (positionsFrom note s) (templateAt d hint path s).outcome := by
  induction s generalizing note hint path with
  | pointer target ih =>
    rw [positionsFrom, outcome_pointer]
    exact (ih read path).cons (admissible_here read (by simp [Unsupported, kind]) (by simp))
  | sequence element ih =>
    rw [positionsFrom, outcome_sequence]
    refine .cons (admissible_here read (by simp [Unsupported, kind]) (by simp)) ?_
    exact (Answers.under .element (ih (reading_none element) _)).map _
  | array element length ih =>
    rw [positionsFrom, outcome_array]
    refine .cons (admissible_here read (by simp [Unsupported, kind]) (by simp)) ?_
    exact (Answers.under .element (ih (reading_none element) _)).map _
  | record name fields ih =>
    rw [positionsFrom, outcome_record]
    refine .cons (admissible_here read (by simp [Unsupported, kind]) (by simp)) ?_
    exact (fieldTemplates_answer (fun f member _ read => ih f member read) name path []).map _
  | string | boolean | float _ =>
    rw [positionsFrom, templateAt]
    exact .cons (admissible_here read (by simp [Unsupported, kind]) (by simp)) (.nil _)
  | integer width =>
    rw [positionsFrom, outcome_integer]
    exact integerTemplate_answers read path
  | map _ _ | any | foreign _ =>
    rw [positionsFrom, outcome_unsupported]
    · exact .fault (.unsupported (by simp [Unsupported, here, kind]))
    · simp [kind]

end Synthesis

/-- A template can be made exactly if every position of the schema is admissible, and else the error
is the fault of the first that is not. -/
theorem Schema.template_fails_at_first_fault (s : Schema) (d : Defaults) :
    ((∃ t, s.template d = .ok t) ↔ ∀ p ∈ s.positions, p.Admissible d) ∧
      ∀ e, s.template d = .error e ↔ Position.FirstFault d s.rootLabel s.positions e := by
  have answers : Position.Answers d s.rootLabel s.positions (s.template d) :=
    Synthesis.templateAt_answers s (reading_none s) s.rootLabel
  cases made : s.template d with
  | ok t =>
    rw [made] at answers
    refine ⟨⟨fun _ => answers, fun _ => ⟨t, rfl⟩⟩, fun e => ?_⟩
    constructor
    · intro failed
      cases failed
    · intro first
      exact absurd answers first.not_admissible
  | error e =>
    rw [made] at answers
    have first : Position.FirstFault d s.rootLabel s.positions e := answers
    refine ⟨⟨?_, fun all => absurd all first.not_admissible⟩, fun e' => ?_⟩
    · rintro ⟨t, ⟨⟩⟩
    · constructor
      · rintro ⟨⟩
        exact first
      · intro first'
        rw [first.unique first']

end ContractFixture
