import ContractFixture.Proofs.Keyed
import ContractFixture.Proofs.Except
import ContractFixture.Proofs.Synthesis.Outcome

/-!
# The templates that synthesis makes

The rules leave out what only matters to messages and to failure. A law about all templates that
synthesis makes is an induction over them.
-/

namespace ContractFixture.Synthesis

/-- As many elements as the annotation says, or the default. -/
def exampleLength (d : Defaults) (list : Schema) (note : Option String) : UInt64 :=
  (list.said note).min.getD d.minItems

/-- The template is made from the schema where the annotation holds. -/
inductive Made (d : Defaults) : Option String → Schema → Template → Prop
  | pointer {note : Option String} {target : Schema} {t : Template}
      (made : Made d note target t) : Made d note (.pointer target) t
  | sequence {note : Option String} {element : Schema} {contents : Template}
      (made : Made d none element contents) :
      Made d note (.sequence element)
        (.each contents (exampleLength d (.sequence element) note) 0)
  | array {note : Option String} {element : Schema} {length : UInt64} {contents : Template}
      (made : Made d none element contents) :
      Made d note (.array element length)
        (.each contents (exampleLength d (.array element length) note) 0)
  | record {note : Option String} {name : String} {fields : List (Field Schema)}
      {template : Field Schema → Template}
      (made : ∀ f ∈ fields, Made d f.hint f.type (template f)) :
      Made d note (.record name fields)
        (.object (Keyed.ofList (fields.map fun f => (f.key, template f))))
  | string {note : Option String} :
      Made d note .string (stringTemplate d (Schema.string.said note))
  | boolean {note : Option String} :
      Made d note .boolean (booleanTemplate d (Schema.boolean.said note))
  | integer {note : Option String} {width : IntegerWidth} {path : String} {t : Template}
      (made : integerTemplate d ((Schema.integer width).said note) path width = .ok t) :
      Made d note (.integer width) t
  | float {note : Option String} {width : FloatWidth} :
      Made d note (.float width) (floatTemplate d ((Schema.float width).said note))

variable {d : Defaults}

theorem integerTemplate_within {hint : Hint} {path : String} {width : IntegerWidth} {t : Template}
    (fits : hint.SampleFits (.integer width)) (h : integerTemplate d hint path width = .ok t) :
    ∃ n, t = likeJson (.int n) ∧ width.contains n = true := by
  obtain ⟨n, rfl, sampled | within⟩ := integerTemplate_eq_ok h
  · cases fits _ sampled with
    | integer low high => exact ⟨n, rfl, IntegerWidth.contains_iff.mpr ⟨low, high⟩⟩
  · exact ⟨n, rfl, within⟩

theorem fieldTemplate_eq_ok {path : String} {f : Field Schema} {t : Template}
    (h : fieldTemplate d path f = .ok t) :
    ∃ hint, f.type.reading f.hint = .ok hint ∧
      (templateAt d hint (path ++ "." ++ f.name) f.type).outcome = .ok t := by
  obtain ⟨hint, said, made⟩ := bind_eq_ok h
  exact ⟨hint, reading_of_fieldHint said, made⟩

def madeField (d : Defaults) (path : String) (f : Field Schema) : Template :=
  (fieldTemplate d path f).toOption.getD default

theorem madeField_eq {path : String} {f : Field Schema} {t : Template}
    (h : fieldTemplate d path f = .ok t) : madeField d path f = t := by
  rw [madeField, h]
  rfl

theorem fieldTemplates_eq_ok {fields : List (Field Schema)} {record path : String}
    {sofar entries : List (String × Template)}
    (h : (fieldTemplates d record path sofar fields).outcome = .ok entries) :
    (∀ f ∈ fields, fieldTemplate d path f = .ok (madeField d path f)) ∧
      entries = Keyed.insertAll (fields.map fun f => (f.key, madeField d path f)) sofar := by
  -- The entries so far grow at each step, so the induction is over all of them.
  induction fields generalizing sofar with
  | nil =>
    cases h
    exact ⟨by simp, rfl⟩
  | cons f rest ih =>
    rw [outcome_fieldTemplates_cons] at h
    obtain ⟨t, first, h⟩ := bind_eq_ok h
    obtain rfl := madeField_eq first
    obtain ⟨others, rfl⟩ := ih h
    exact ⟨List.forall_mem_cons.mpr ⟨first, others⟩, rfl⟩

theorem made_of_templateAt {s : Schema} {note : Option String} {hint : Hint} {path : String}
    {t : Template} (read : s.reading note = .ok hint)
    (h : (templateAt d hint path s).outcome = .ok t) : Made d note s t := by
  have said := Schema.said_of_reading read
  induction s generalizing note hint path t with
  | pointer target ih =>
    rw [outcome_pointer] at h
    exact .pointer (ih read h said)
  | sequence element ih =>
    rw [outcome_sequence, ← said] at h
    obtain ⟨contents, made, rfl⟩ := map_eq_ok h
    exact .sequence (ih (Schema.reading_none element) made rfl)
  | array element length ih =>
    rw [outcome_array, ← said] at h
    obtain ⟨contents, made, rfl⟩ := map_eq_ok h
    exact .array (ih (Schema.reading_none element) made rfl)
  | record name fields ih =>
    rw [outcome_record] at h
    obtain ⟨entries, made, rfl⟩ := map_eq_ok h
    obtain ⟨each, rfl⟩ := fieldTemplates_eq_ok made
    refine .record fun f member => ?_
    obtain ⟨hint, read, made⟩ := fieldTemplate_eq_ok (each f member)
    exact ih f member read made (Schema.said_of_reading read)
  | string =>
    rw [templateAt, ← said] at h
    cases h
    exact .string
  | boolean =>
    rw [templateAt, ← said] at h
    cases h
    exact .boolean
  | integer width =>
    rw [outcome_integer, ← said] at h
    exact .integer h
  | float width =>
    rw [templateAt, ← said] at h
    cases h
    exact .float
  | map _ _ | any | foreign _ =>
    rw [outcome_unsupported d hint path (by simp [Schema.kind])] at h
    cases h

theorem get?_of_last_field {fields : List (Field Schema)} {template : Field Schema → Template}
    {key : String} {f : Field Schema} (last : (fields.filter (·.key = key)).getLast? = some f) :
    Keyed.get? key (Keyed.ofList (fields.map fun f => (f.key, template f))) =
      some (template f) := by
  rw [Keyed.get?_ofList, List.filter_map, List.getLast?_map]
  have same : (fields.filter ((fun e => decide (e.1 = key)) ∘
      fun f => (f.key, template f))).getLast? = some f := last
  rw [same]
  rfl

theorem entry_of_last_field {fields : List (Field Schema)} {template : Field Schema → Template}
    {key : String} {f : Field Schema} {t : Template}
    (last : (fields.filter (·.key = key)).getLast? = some f)
    (found : Keyed.get? key (Keyed.ofList (fields.map fun f => (f.key, template f))) = some t) :
    f ∈ fields ∧ t = template f := by
  rw [get?_of_last_field last] at found
  exact ⟨List.mem_of_mem_filter (List.mem_of_getLast? last), (Option.some.inj found).symm⟩

theorem node_of_last_field {fields : List (Field Schema)} {record path : String} {hint : Hint}
    {f : Field Schema} {t : Template} (last : (fields.filter (·.key = f.key)).getLast? = some f)
    (made : (templateAt d hint path (.record record fields)).outcome = .ok t) :
    ∃ entries node, t = .object entries ∧ Keyed.get? f.key entries = some node ∧
      fieldTemplate d path f = .ok node := by
  rw [outcome_record] at made
  obtain ⟨entries, walked, rfl⟩ := map_eq_ok made
  obtain ⟨each, rfl⟩ := fieldTemplates_eq_ok walked
  have isField : f ∈ fields := List.mem_of_mem_filter (List.mem_of_getLast? last)
  exact ⟨_, madeField d path f, rfl, get?_of_last_field last, each f isField⟩

theorem made_of_template {s : Schema} {t : Template} (h : s.template d = .ok t) :
    Made d none s t :=
  made_of_templateAt (Schema.reading_none s) h

end ContractFixture.Synthesis
