import ContractFixture.Proofs.Fixture.Recording
import ContractFixture.Proofs.Synthesis.Made
import ContractFixture.Proofs.Template.Matcher

/-! # Bodies conform to their schema -/

namespace ContractFixture

namespace Synthesis

/-- The document is an example of the schema where the annotation holds. -/
inductive Conforms (d : Defaults) : Option String → Schema → Json → Prop
  | pointer {note : Option String} {target : Schema} {value : Json}
      (conforms : Conforms d note target value) :
      Conforms d note (.pointer target) value
  | sequence {note : Option String} {element : Schema} {items : List Json}
      (length : items.length = (exampleLength d (.sequence element) note).toNat)
      (equal : ∀ a ∈ items, ∀ b ∈ items, a = b)
      (conform : ∀ item ∈ items, Conforms d none element item) :
      Conforms d note (.sequence element) (.arr items)
  /-- The length that an array is declared with plays no part. -/
  | array {note : Option String} {element : Schema} {declared : UInt64} {items : List Json}
      (length : items.length = (exampleLength d (.array element declared) note).toNat)
      (equal : ∀ a ∈ items, ∀ b ∈ items, a = b)
      (conform : ∀ item ∈ items, Conforms d none element item) :
      Conforms d note (.array element declared) (.arr items)
  /-- Of several fields with one key the last counts. -/
  | record {note : Option String} {name : String} {fields : List (Field Schema)}
      {members : List (String × Json)}
      (once : Keyed.Sorted members)
      (keys : ∀ key, key ∈ members.map (·.1) ↔ key ∈ fields.map Field.key)
      (conform : ∀ key f value, (fields.filter (·.key = key)).getLast? = some f →
        Keyed.get? key members = some value → Conforms d f.hint f.type value) :
      Conforms d note (.record name fields) (.obj members)
  | string {note : Option String} (text : String) : Conforms d note .string (.str text)
  | boolean {note : Option String} (value : Bool) :
      Conforms d note .boolean (.bool value)
  | integer {note : Option String} {width : IntegerWidth} {value : Int}
      (low : width.low ≤ value) (high : value ≤ width.high) :
      Conforms d note (.integer width) (.int value)
  | float {note : Option String} {width : FloatWidth} (value : Float)
      (finite : value.isFinite = true) :
      Conforms d note (.float width) (.num (.float value finite))

variable {d : Defaults} {note : Option String}

/-! ## Leaves -/

theorem conforms_string (hint : Hint) :
    Conforms d note .string (stringTemplate d hint).document := by
  unfold stringTemplate
  cases hint.pattern <;> exact .string _

theorem conforms_boolean (hint : Hint) :
    Conforms d note .boolean (booleanTemplate d hint).document := by
  unfold booleanTemplate
  split <;> exact .boolean _

theorem conforms_integer {hint : Hint} {path : String} {width : IntegerWidth} {t : Template}
    (fits : hint.SampleFits (.integer width)) (h : integerTemplate d hint path width = .ok t) :
    Conforms d note (.integer width) t.document := by
  obtain ⟨n, rfl, within⟩ := integerTemplate_within fits h
  obtain ⟨low, high⟩ := IntegerWidth.contains_iff.mp within
  exact .integer low high

theorem conforms_float {hint : Hint} {width : FloatWidth} (fits : hint.SampleFits (.float width))
    (finite : d.float.isFinite = true) :
    Conforms d note (.float width) (floatTemplate d hint).document := by
  obtain ⟨x, made, from_⟩ := floatTemplate_eq d hint
  have isFinite : x.isFinite = true := by
    rcases from_ with sampled | ⟨-, rfl⟩
    · cases fits _ sampled with
      | float finite _ => exact finite
    · exact finite
  show Conforms d note _ (floatTemplate d hint).document
  rw [made]
  show Conforms d note _ (Json.ofFloat x)
  rw [Json.ofFloat_of_finite isFinite]
  exact .float x isFinite

/-! ## Nodes -/

theorem eq_of_mem_replicate {n : Nat} {value : Json} :
    ∀ a ∈ List.replicate n value, ∀ b ∈ List.replicate n value, a = b := by
  intro a isItem b isItem'
  rw [List.eq_of_mem_replicate isItem, List.eq_of_mem_replicate isItem']

theorem conforms_record {name : String} {fields : List (Field Schema)}
    {template : Field Schema → Template}
    (conform : ∀ f ∈ fields, Conforms d f.hint f.type (template f).document) :
    Conforms d note (.record name fields)
      (Template.object (Keyed.ofList (fields.map fun f => (f.key, template f)))).document := by
  rw [Template.document_object]
  refine .record ?once ?keys ?conform
  case once => exact (Keyed.sorted_ofList _).map Template.document
  case keys =>
    intro key
    rw [List.map_map]
    show key ∈ (Keyed.ofList _).map (·.1) ↔ _
    rw [Keyed.mem_keys_ofList, List.map_map]
    rfl
  case conform =>
    intro key f value last found
    rw [Keyed.get?_map] at found
    obtain ⟨entry, stands, rfl⟩ := Option.map_eq_some_iff.mp found
    obtain ⟨isField, rfl⟩ := entry_of_last_field last stands
    exact conform f isField

theorem Made.conforms {s : Schema} {t : Template} (finite : d.float.isFinite = true)
    (made : Made d note s t) : Conforms d note s t.document := by
  induction made with
  | pointer _ ih => exact .pointer ih
  | sequence _ ih =>
    rw [Template.document_each, Matcher.repetitions_zero]
    refine .sequence List.length_replicate eq_of_mem_replicate fun item member => ?_
    rwa [List.eq_of_mem_replicate member]
  | array _ ih =>
    rw [Template.document_each, Matcher.repetitions_zero]
    refine .array List.length_replicate eq_of_mem_replicate fun item member => ?_
    rwa [List.eq_of_mem_replicate member]
  | record _ ih => exact conforms_record ih
  | string => exact conforms_string _
  | boolean => exact conforms_boolean _
  | integer made => exact conforms_integer (Schema.sampleFits_said rfl _) made
  | float => exact conforms_float (Schema.sampleFits_said rfl _) finite

end Synthesis

open Synthesis

/-- If a fixture can be made for a message type, its body is an example of that type. -/
theorem Schema.body_conforms {s : Schema} {d : Defaults} {fixture : Fixture}
    (finite : d.float.isFinite = true) (made : s.fixture d = .ok fixture) :
    Conforms d none s fixture.body := by
  obtain ⟨t, template, rfl⟩ := map_eq_ok made
  rw [Template.body_fixture]
  exact (made_of_template template).conforms finite

def Schema.diary : Schema :=
  .pointer (.record "Diary" [⟨"day", some "days", .boolean, none⟩,
    ⟨"days", none, .pointer (.sequence (.array (.float .f32) 5)), some " min=2"⟩,
    ⟨"year", none, .integer .u16, some "example=65535"⟩])

theorem Schema.diary_conforms :
    ({} : Defaults).float.isFinite = true ∧
      ∃ fixture, Schema.diary.fixture {} = .ok fixture ∧
        Conforms {} none .diary fixture.body := by
  have finite : ({} : Defaults).float.isFinite = true := by decide
  obtain ⟨fixture, made⟩ := eq_ok_of_isSome (o := Schema.diary.fixture {}) (by decide +kernel)
  exact ⟨finite, fixture, made, Schema.body_conforms finite made⟩

end ContractFixture
