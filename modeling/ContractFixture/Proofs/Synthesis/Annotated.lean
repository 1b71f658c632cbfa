import ContractFixture.Proofs.Except
import ContractFixture.Proofs.Synthesis.Made

/-!
# Annotations are honoured

The walk passes over an example that does not fit the type it meets. So the kind that decides how an
annotation is read, the variant of the example, and the type at which it is taken up have to agree.
-/

namespace ContractFixture

/-- The schema is a list with such elements. -/
inductive Schema.ListOf : Schema → Schema → Prop
  | sequence (element : Schema) : ListOf (.sequence element) element
  | array (element : Schema) (length : UInt64) : ListOf (.array element length) element

def Defaults.sample? (d : Defaults) : Hint.Target → Option Sample
  | .boolean => some (.boolean d.boolean)
  | .integer _ => some (.integer d.integer)
  | .float _ => some (.float d.float)
  | .string => some (.string d.string)
  | .sequence | .structured => none

namespace Synthesis

/-- What is made of a field of this type at `path`, where its annotation says `hint`. -/
structure Honours (d : Defaults) (hint : Hint) (path : String) (type : Schema)
    (made : Except SynthesisError Template) : Prop where
  /-- An example is of the variant of the type behind all pointers. -/
  variant : ∀ sample, hint.sample = some sample →
    ∃ kind, Hint.Target.ofSchema? type.target = some kind ∧ kind.Takes sample
  sample : ∀ sample, hint.sample = some sample → hint.pattern = none →
    made = .ok (likeJson sample.toJson)
  pattern : ∀ form, hint.pattern = some form →
    ∃ text, hint.sample = some (.string text) ∧ made = .ok (.pattern text form)
  pattern_given : ∀ text form, made = .ok (.pattern text form) →
    hint.sample = some (.string text) ∧ hint.pattern = some form
  /-- A least length belongs to a list. It is that of the template if the elements have one. -/
  min : ∀ n, hint.min = some n → ∃ element, type.target.ListOf element ∧
    made = (templateAt d {} (path ++ "[]") element).outcome.map (.each · n 0)
  default_sample : hint.sample = none → ∀ kind usual,
    Hint.Target.ofSchema? type.target = some kind → d.sample? kind = some usual →
      made = .ok (likeJson usual.toJson) ∨
        ∃ width, kind = .integer width ∧ width.contains d.integer = false ∧
          made = .error (.defaultOutOfRange path d.integer width)
  default_min : hint.min = none → ∀ element, type.target.ListOf element →
    made = (templateAt d {} (path ++ "[]") element).outcome.map (.each · d.minItems 0)

variable {d : Defaults} {hint : Hint} {path : String}

/-! ## Leaves -/

def exampleTemplate (sample : Sample) (pattern : Option String) : Template :=
  match sample, pattern with
  | .string text, some form => .pattern text form
  | sample, _ => likeJson sample.toJson

theorem exampleTemplate_none (sample : Sample) :
    exampleTemplate sample none = likeJson sample.toJson := by
  cases sample <;> rfl

theorem eq_of_exampleTemplate {sample : Sample} {pattern : Option String} {text form : String}
    (h : exampleTemplate sample pattern = .pattern text form) :
    sample = .string text ∧ pattern = some form := by
  cases pattern with
  | none =>
    rw [exampleTemplate_none] at h
    cases h
  | some other =>
    cases sample <;> cases h
    exact ⟨rfl, rfl⟩

theorem honours_leaf {s : Schema} {kind : Hint.Target} {usual : Sample}
    {made : Except SynthesisError Template} (isKind : Hint.Target.ofSchema? s.target = some kind)
    (noList : ∀ element, ¬ s.target.ListOf element) (suits : hint.Suits kind)
    (default : d.sample? kind = some usual)
    (given : ∀ sample, hint.sample = some sample → made = .ok (exampleTemplate sample hint.pattern))
    (silent : hint.sample = none → made = .ok (likeJson usual.toJson) ∨
      ∃ width, kind = .integer width ∧ width.contains d.integer = false ∧
        made = .error (.defaultOutOfRange path d.integer width)) :
    Honours d hint path s made where
  variant sample sampled := ⟨kind, isKind, suits.sample sample sampled⟩
  sample sample sampled none := by rw [given sample sampled, none, exampleTemplate_none]
  pattern form patterned := by
    obtain ⟨some, rfl⟩ := suits.pattern (by simp [patterned])
    obtain ⟨sample, sampled⟩ := Option.isSome_iff_exists.mp some
    cases suits.sample sample sampled with
    | string text =>
      refine ⟨text, sampled, ?_⟩
      rw [given _ sampled, patterned]
      rfl
  pattern_given text form isPattern := by
    cases sampled : hint.sample with
    | none =>
      rcases silent sampled with made | ⟨_, -, -, made⟩ <;> rw [made] at isPattern <;>
        cases isPattern
    | some sample =>
      rw [given sample sampled] at isPattern
      obtain ⟨rfl, patterned⟩ := eq_of_exampleTemplate (Except.ok.inj isPattern)
      exact ⟨rfl, patterned⟩
  min n bounded := by
    obtain rfl := suits.min (by simp [bounded])
    cases default
  default_sample none kind' usual' isKind' default' := by
    obtain rfl := Option.some.inj (isKind.symm.trans isKind')
    obtain rfl := Option.some.inj (default.symm.trans default')
    exact silent none
  default_min _ element list := absurd list (noList element)

theorem honours_string (suits : hint.Suits .string) :
    Honours d hint path .string (.ok (stringTemplate d hint)) := by
  refine honours_leaf rfl nofun suits rfl (fun sample sampled => ?_) fun none => Or.inl ?_
  · cases suits.sample sample sampled
    unfold stringTemplate
    rw [sampled]
    cases hint.pattern <;> rfl
  · have no_pattern : hint.pattern = Option.none := by
      cases patterned : hint.pattern with
      | none => rfl
      | some form =>
        obtain ⟨some, -⟩ := suits.pattern (by simp [patterned])
        simp [none] at some
    unfold stringTemplate
    rw [none, no_pattern]
    rfl

theorem honours_boolean (suits : hint.Suits .boolean) :
    Honours d hint path .boolean (.ok (booleanTemplate d hint)) := by
  refine honours_leaf rfl nofun suits rfl (fun sample sampled => ?_) fun none => Or.inl ?_
  · cases suits.sample sample sampled
    unfold booleanTemplate
    rw [sampled]
    rfl
  · unfold booleanTemplate
    rw [none]
    rfl

theorem honours_integer {width : IntegerWidth} (suits : hint.Suits (.integer width)) :
    Honours d hint path (.integer width) (integerTemplate d hint path width) := by
  refine honours_leaf rfl nofun suits rfl (fun sample sampled => ?_) fun none => ?_
  · cases suits.sample sample sampled
    unfold integerTemplate
    rw [sampled]
    rfl
  · unfold integerTemplate
    rw [none]
    cases within : width.contains d.integer with
    | true => exact Or.inl rfl
    | false => exact Or.inr ⟨width, rfl, within, rfl⟩

theorem honours_float {width : FloatWidth} (suits : hint.Suits (.float width)) :
    Honours d hint path (.float width) (.ok (floatTemplate d hint)) := by
  refine honours_leaf rfl nofun suits rfl (fun sample sampled => ?_) fun none => Or.inl ?_
  · cases suits.sample sample sampled
    unfold floatTemplate
    rw [sampled]
    rfl
  · unfold floatTemplate
    rw [none]
    rfl

/-! ## Nodes -/

theorem honours_list {s element : Schema} (list : s.ListOf element)
    (suits : hint.Suits .sequence) :
    Honours d hint path s ((templateAt d {} (path ++ "[]") element).outcome.map
      (.each · (hint.min.getD d.minItems) 0)) := by
  have isTarget : s.target = s := by cases list <;> rfl
  have noSample : ∀ sample, hint.sample ≠ some sample := fun sample sampled => by
    cases suits.sample sample sampled
  have noPattern : ∀ form, hint.pattern ≠ some form := fun form patterned => by
    cases (suits.pattern (by simp [patterned])).2
  have same : ∀ {other}, s.ListOf other → other = element := by
    intro other list'
    cases list <;> cases list' <;> rfl
  refine ⟨?variant, ?sample, ?pattern, ?pattern_given, ?min, ?default_sample, ?default_min⟩
  case variant => exact fun sample sampled => absurd sampled (noSample sample)
  case sample => exact fun sample sampled => absurd sampled (noSample sample)
  case pattern => exact fun form patterned => absurd patterned (noPattern form)
  case pattern_given =>
    intro text form made
    obtain ⟨contents, -, isPattern⟩ := map_eq_ok made
    cases isPattern
  case min =>
    intro n bounded
    rw [isTarget, bounded]
    exact ⟨element, list, rfl⟩
  case default_sample =>
    intro _ kind usual isKind default
    rw [isTarget] at isKind
    cases list <;> cases isKind <;> cases default
  case default_min =>
    intro none other list'
    rw [isTarget] at list'
    rw [same list', none]
    rfl

theorem honours_nothing {s : Schema} {made : Except SynthesisError Template}
    (noDefault : ∀ kind, Hint.Target.ofSchema? s.target = some kind → d.sample? kind = none)
    (noList : ∀ element, ¬ s.target.ListOf element)
    (noPattern : ∀ text form, made ≠ .ok (.pattern text form)) : Honours d {} path s made where
  variant _ none := by cases none
  sample _ none := by cases none
  pattern _ none := by cases none
  pattern_given text form isPattern := absurd isPattern (noPattern text form)
  min _ none := by cases none
  default_sample _ kind usual isKind default := by simp [noDefault kind isKind] at default
  default_min _ element list := absurd list (noList element)

theorem honours_of_reading {s : Schema} {note : Option String}
    (read : s.reading note = .ok hint) :
    Honours d hint path s (templateAt d hint path s).outcome := by
  induction s with
  | pointer target ih =>
    rw [outcome_pointer]
    have behind := ih read
    exact ⟨behind.variant, behind.sample, behind.pattern, behind.pattern_given, behind.min,
      behind.default_sample, behind.default_min⟩
  | sequence element _ =>
    rw [outcome_sequence]
    exact honours_list (.sequence element) (Schema.suits_of_reading rfl read)
  | array element length _ =>
    rw [outcome_array]
    exact honours_list (.array element length) (Schema.suits_of_reading rfl read)
  | record name fields _ =>
    obtain rfl := (Schema.suits_of_reading rfl read).eq_nothing
    refine honours_nothing ?_ nofun fun text form made => ?_
    · rintro kind ⟨⟩
      rfl
    · rw [outcome_record] at made
      obtain ⟨entries, -, isPattern⟩ := map_eq_ok made
      cases isPattern
  | string => exact honours_string (Schema.suits_of_reading rfl read)
  | boolean => exact honours_boolean (Schema.suits_of_reading rfl read)
  | integer width =>
    rw [outcome_integer]
    exact honours_integer (Schema.suits_of_reading rfl read)
  | float width => exact honours_float (Schema.suits_of_reading rfl read)
  | map _ _ | any | foreign _ =>
    -- The annotation was not looked at.
    have nothing : hint = {} := by cases note <;> cases read <;> rfl
    subst nothing
    exact honours_nothing nofun nofun nofun

/-- What an annotation gives, if it can be read, is found in the template of its field, and that is
what the record has at the key of the field unless a later field has the key. -/
theorem annotation_honoured {f : Field Schema}
    (accepted : fieldHint path f.type f.hint = .ok hint) :
    Honours d hint path f.type (templateAt d hint path f.type).outcome ∧
      ∀ owner, path = owner ++ "." ++ f.name →
        Honours d hint path f.type (fieldTemplate d owner f) ∧
          ∀ outer record fields t, (fields.filter (·.key = f.key)).getLast? = some f →
            (templateAt d outer owner (.record record fields)).outcome = .ok t →
              ∃ entries node, t = .object entries ∧ Keyed.get? f.key entries = some node ∧
                Honours d hint path f.type (.ok node) := by
  have honoured : Honours d hint path f.type (templateAt d hint path f.type).outcome :=
    honours_of_reading (reading_of_fieldHint accepted)
  refine ⟨honoured, ?_⟩
  rintro owner rfl
  rw [← fieldTemplate_of_fieldHint accepted] at honoured
  refine ⟨honoured, fun outer record fields t last made => ?_⟩
  obtain ⟨entries, node, isObject, stands, isNode⟩ := node_of_last_field last made
  rw [isNode] at honoured
  exact ⟨entries, node, isObject, stands, honoured⟩

def dateField : Field Schema :=
  ⟨"date", none, .pointer (.pointer .string), some " example = 2000-01-01, regex = ^[0-9-]+"⟩

def marksField : Field Schema := ⟨"marks", none, .pointer (.array .boolean 3), some "min=0"⟩

/-- The date takes the place of a field that is before it. -/
def dayRecord : Schema :=
  .record "Day" [⟨"day", some "date", .boolean, some "example=false"⟩, dateField, marksField]

theorem annotations_behind_pointers :
    (∃ hint, fieldHint "Day.date" dateField.type dateField.hint = .ok hint ∧
      (templateAt {} hint "Day.date" dateField.type).outcome =
        .ok (.pattern "2000-01-01" "^[0-9-]+")) ∧
    (∃ hint, fieldHint "Day.marks" marksField.type marksField.hint = .ok hint ∧
      (templateAt {} hint "Day.marks" marksField.type).outcome =
        .ok (.each (likeJson (.bool true)) 0 0)) ∧
    ∃ entries, (templateAt {} {} "Day" dayRecord).outcome = .ok (.object entries) ∧
      Keyed.get? "date" entries = some (.pattern "2000-01-01" "^[0-9-]+") ∧
      Keyed.get? "marks" entries = some (.each (likeJson (.bool true)) 0 0) := by
  have date : fieldHint "Day.date" dateField.type dateField.hint =
      .ok { sample := some (.string "2000-01-01"), pattern := some "^[0-9-]+" } := by
    with_unfolding_all rfl
  have marks : fieldHint "Day.marks" marksField.type marksField.hint = .ok { min := some 0 } := by
    with_unfolding_all rfl
  obtain ⟨dateMade, dateStands⟩ := annotation_honoured (d := {}) (f := dateField) date
  obtain ⟨marksMade, marksStand⟩ := annotation_honoured (d := {}) (f := marksField) marks
  refine ⟨⟨_, date, ?date⟩, ⟨_, marks, ?marks⟩, ?day⟩
  case date =>
    obtain ⟨text, sampled, made⟩ := dateMade.pattern _ rfl
    cases sampled
    exact made
  case marks =>
    obtain ⟨element, list, made⟩ := marksMade.min 0 rfl
    cases list
    exact made
  case day =>
    obtain ⟨t, made⟩ := eq_ok_of_isSome (o := (templateAt {} {} "Day" dayRecord).outcome)
      (by decide +kernel)
    obtain ⟨entries, node, rfl, atDate, honoured⟩ := (dateStands "Day" rfl).2 {} _ _ t rfl made
    obtain ⟨entries', node', same, atMarks, honoured'⟩ :=
      (marksStand "Day" rfl).2 {} _ _ (.object entries) rfl made
    obtain ⟨text, sampled, isPattern⟩ := honoured.pattern _ rfl
    obtain ⟨element, list, isList⟩ := honoured'.min 0 rfl
    cases same
    cases sampled
    cases isPattern
    cases list
    cases isList
    exact ⟨entries, made, atDate, atMarks⟩

end Synthesis

end ContractFixture
