import ContractFixture.Proofs.Synthesis.Annotated
import ContractFixture.Proofs.Synthesis.Rules

/-! # An annotation stays in its field -/

namespace ContractFixture

/-! ## A field of a schema -/

/-- A schema with one node left out. -/
inductive Schema.Around where
  | here
  | pointer (inside : Around)
  | sequence (inside : Around)
  | array (inside : Around) (length : UInt64)
  | map (inside : Around)
  | field (owner : String) (before : List (Field Schema)) (name : String)
      (wireName hint : Option String) (inside : Around) (after : List (Field Schema))

namespace Schema.Around

def fill (s : Schema) : Around → Schema
  | .here => s
  | .pointer inside => .pointer (fill s inside)
  | .sequence inside => .sequence (fill s inside)
  | .array inside length => .array (fill s inside) length
  | .map inside => .map (fill s inside)
  | .field owner before name wireName hint inside after =>
    .record owner (before ++ ⟨name, wireName, fill s inside, hint⟩ :: after)

def steps : Around → List Path.Step
  | .here => []
  | .pointer inside | .map inside => steps inside
  | .sequence inside | .array inside _ => .items :: steps inside
  | .field _ _ name wireName _ inside _ => .member (wireName.getD name) :: steps inside

/-- Some field around the node gives its key to a later field. -/
def IsReplaced : Around → Prop
  | .here => False
  | .pointer inside | .map inside | .sequence inside | .array inside _ => IsReplaced inside
  | .field _ _ name wireName _ inside after =>
    wireName.getD name ∈ after.map Field.key ∨ IsReplaced inside

end Schema.Around

/-- A field of a record that stands somewhere in a schema. -/
structure Schema.FieldPlace where
  around : Schema.Around
  owner : String
  before : List (Field Schema)
  field : Field Schema
  after : List (Field Schema)

namespace Schema.FieldPlace

def ownerWith (place : FieldPlace) (note : Option String) : Schema :=
  .record place.owner (place.before ++ { place.field with hint := note } :: place.after)

def annotated (place : FieldPlace) (note : Option String) : Schema :=
  place.around.fill (place.ownerWith note)

def steps (place : FieldPlace) : List Path.Step :=
  place.around.steps ++ [.member place.field.key]

/-- The field gives its key to a later field of the record, or a field around it does. -/
def IsReplaced (place : FieldPlace) : Prop :=
  place.field.key ∈ place.after.map Field.key ∨ place.around.IsReplaced

end Schema.FieldPlace

namespace Synthesis

/-! ## Templates that differ in one place -/

/-- Two templates are the same, but for the nodes to which the steps lead. Of these `P` holds. -/
inductive SameBut (P : Template → Template → Prop) :
    List Path.Step → Template → Template → Prop
  | here {t t' : Template} (h : P t t') : SameBut P [] t t'
  | items {steps : List Path.Step} {t t' : Template} {min max : UInt64}
      (below : SameBut P steps t t') :
      SameBut P (.items :: steps) (.each t min max) (.each t' min max)
  | member {steps : List Path.Step} {key : String} {t t' : Template}
      {before after : List (String × Template)} (below : SameBut P steps t t') :
      SameBut P (.member key :: steps) (.object (before ++ (key, t) :: after))
        (.object (before ++ (key, t') :: after))

variable {P : Template → Template → Prop} {steps : List Path.Step} {t t' : Template}

theorem SameBut.eq (same : SameBut (· = ·) steps t t') : t = t' := by
  induction same with
  | here h => exact h
  | items _ ih => rw [ih]
  | member _ ih => rw [ih]

theorem SameBut.append {others : List Path.Step} (same : SameBut (SameBut P others) steps t t') :
    SameBut P (steps ++ others) t t' := by
  induction same with
  | here h => exact h
  | items _ ih => exact .items ih
  | member _ ih => exact .member ih

theorem SameBut.imp {Q : Template → Template → Prop} (same : SameBut P steps t t')
    (weaker : ∀ n n', P n n' → Q n n') : SameBut Q steps t t' := by
  induction same with
  | here h => exact .here (weaker _ _ h)
  | items _ ih => exact .items ih
  | member _ ih => exact .member ih

theorem SameBut.keyWays_eq (same : SameBut P steps t t')
    (own : ∀ n n', P n n' → n.keyWays = n'.keyWays) : t.keyWays = t'.keyWays := by
  induction same with
  | here h => exact own _ _ h
  | items _ ih => rw [Template.keyWays_each, Template.keyWays_each, ih]
  | member _ ih => simp [Template.keyWays_object, ih]

/-! ## The node of a field -/

variable {d : Defaults} {note note' : Option String} {s : Schema}

theorem integerTemplate_of_path {hint : Hint} {path other : String} {width : IntegerWidth}
    (h : integerTemplate d hint path width = .ok t) :
    integerTemplate d hint other width = .ok t := by
  unfold integerTemplate at h ⊢
  split at h
  · exact h
  · split at h
    · rwa [if_pos ‹_›]
    · cases h

theorem Made.unique (made : Made d note s t) (made' : Made d note s t') : t = t' := by
  induction made generalizing t' with
  | pointer _ ih =>
    cases made' with
    | pointer made' => exact ih made'
  | sequence _ ih =>
    cases made' with
    | sequence made' => rw [ih made']
  | array _ ih =>
    cases made' with
    | array made' => rw [ih made']
  | @record _ _ fields template _ ih =>
    cases made' with
    | @record _ _ _ template' made' =>
      have same : (fields.map fun f => (f.key, template f)) =
          fields.map fun f => (f.key, template' f) :=
        List.map_congr_left fun f member => by rw [ih f member (made' f member)]
      rw [same]
  | string => cases made'; rfl
  | boolean => cases made'; rfl
  | integer made =>
    cases made' with
    | integer made' =>
      exact Except.ok.inj ((integerTemplate_of_path made).symm.trans made')
  | float => cases made'; rfl

/-- Two lists with the same elements and the same bound above. -/
def SameElements (t t' : Template) : Prop :=
  ∃ contents min min' max, t = .each contents min max ∧ t' = .each contents min' max

/-- What another annotation can change of the node of its field: of a list only the least length. -/
structure Reannotated (type : Schema) (n n' : Template) : Prop where
  keys : n.keyWays = n'.keyWays
  list : ∀ element, type.target.ListOf element → SameElements n n'

theorem Made.reannotated (made : Made d note s t) (made' : Made d note' s t') :
    Reannotated s t t' := by
  have leaf : ∀ {n n' : Template} {rule rule' : Rule}, Leaf n rule → Leaf n' rule' →
      n.keyWays = n'.keyWays := by
    intro n n' rule rule' h h'
    rw [Template.keyWays_of_no_keys h.keys, Template.keyWays_of_no_keys h'.keys]
  induction made with
  | pointer _ ih =>
    cases made' with
    | pointer made' =>
      obtain ⟨keys, list⟩ := ih made'
      exact ⟨keys, list⟩
  | sequence made =>
    cases made' with
    | sequence made' =>
      obtain rfl := made.unique made'
      refine ⟨?_, fun _ _ => ⟨_, _, _, _, rfl, rfl⟩⟩
      rw [Template.keyWays_each, Template.keyWays_each]
  | array made =>
    cases made' with
    | array made' =>
      obtain rfl := made.unique made'
      refine ⟨?_, fun _ _ => ⟨_, _, _, _, rfl, rfl⟩⟩
      rw [Template.keyWays_each, Template.keyWays_each]
  | @record _ owner fields template made =>
    -- What is made of a record does not depend on an annotation of the record.
    cases made' with
    | record made' =>
      have unannotated : Made d none (.record owner fields) _ := .record made
      have same := unannotated.unique (.record made')
      exact ⟨congrArg Template.keyWays same, nofun⟩
  | string =>
    cases made'
    exact ⟨leaf (leaf_string _) (leaf_string _), nofun⟩
  | boolean =>
    cases made'
    exact ⟨leaf (leaf_boolean _) (leaf_boolean _), nofun⟩
  | integer made =>
    cases made' with
    | integer made' => exact ⟨leaf (leaf_integer made) (leaf_integer made'), nofun⟩
  | float =>
    cases made'
    exact ⟨leaf (leaf_float _) (leaf_float _), nofun⟩

/-! ## One field among others -/

/-- Of a record with one field in two versions, the templates differ at most at the key of the
field. -/
theorem Made.one_field {owner : String} {before after : List (Field Schema)} {f f' : Field Schema}
    (made : Made d note (.record owner (before ++ f :: after)) t)
    (made' : Made d note' (.record owner (before ++ f' :: after)) t') (key : f.key = f'.key) :
    (f.key ∈ after.map Field.key → t = t') ∧
      ∃ n n', Made d f.hint f.type n ∧ Made d f'.hint f'.type n' ∧
        (f.key ∉ after.map Field.key → ∃ first last,
          t = .object (first ++ (f.key, n) :: last) ∧
          t' = .object (first ++ (f.key, n') :: last)) := by
  cases made with
  | @record _ _ _ template made =>
    cases made' with
    | @record _ _ _ template' made' =>
      have others : ∀ g, g ∈ before ∨ g ∈ after → template g = template' g := by
        intro g among
        have isField : g ∈ before ++ f :: after ∧ g ∈ before ++ f' :: after := by
          rcases among with member | member <;> simp [member]
        exact (made g isField.1).unique (made' g isField.2)
      have same_before : (before.map fun g => (g.key, template g)) =
          before.map fun g => (g.key, template' g) :=
        List.map_congr_left fun g member => by rw [others g (Or.inl member)]
      have same_after : (after.map fun g => (g.key, template g)) =
          after.map fun g => (g.key, template' g) :=
        List.map_congr_left fun g member => by rw [others g (Or.inr member)]
      have keys : (after.map fun g => (g.key, template' g)).map (·.1) = after.map Field.key := by
        rw [List.map_map]
        rfl
      rw [List.map_append, List.map_append, List.map_cons, List.map_cons, same_before, same_after,
        Keyed.ofList_append_cons, Keyed.ofList_append_cons, keys, ← key]
      refine ⟨fun replaced => by rw [if_pos replaced, if_pos replaced], template f, template' f',
        made f (by simp), made' f' (by simp), fun stays => ?_⟩
      obtain ⟨first, last, inserted⟩ := Keyed.exists_insert_eq f.key
        (Keyed.ofList ((before.map fun g => (g.key, template' g)) ++
          after.map fun g => (g.key, template' g)))
      refine ⟨first, last, ?_, ?_⟩
      · rw [if_neg stays, inserted]
      · rw [if_neg stays, inserted]

/-! ## A field at any depth -/

theorem Made.around {P : Template → Template → Prop} {around : Schema.Around} {s s' : Schema}
    (inner : ∀ {note n n'}, Made d note s n → Made d note s' n' → P n n')
    (made : Made d note (around.fill s) t) (made' : Made d note (around.fill s') t') :
    (around.IsReplaced → t = t') ∧ (¬ around.IsReplaced → SameBut P around.steps t t') := by
  induction around generalizing note t t' with
  | here => exact ⟨False.elim, fun _ => .here (inner made made')⟩
  | pointer inside ih =>
    cases made with
    | pointer made =>
      cases made' with
      | pointer made' => exact ih made made'
  | sequence inside ih =>
    cases made with
    | sequence made =>
      cases made' with
      | sequence made' =>
        obtain ⟨replaced, shown⟩ := ih made made'
        exact ⟨fun h => by rw [replaced h]; rfl, fun h => .items (shown h)⟩
  | array inside length ih =>
    cases made with
    | array made =>
      cases made' with
      | array made' =>
        obtain ⟨replaced, shown⟩ := ih made made'
        exact ⟨fun h => by rw [replaced h]; rfl, fun h => .items (shown h)⟩
  | map inside ih => cases made
  | field owner before name wireName hint inside after ih =>
    rw [Schema.Around.fill] at made made'
    obtain ⟨here, n, n', made, made', differ⟩ := Made.one_field made made' rfl
    obtain ⟨replaced, shown⟩ := ih made made'
    by_cases later : wireName.getD name ∈ after.map Field.key
    · exact ⟨fun _ => here later, fun h => absurd (Or.inl later) h⟩
    · obtain ⟨first, last, rfl, rfl⟩ := differ later
      refine ⟨fun h => ?_, fun h => .member (shown fun inner => h (Or.inr inner))⟩
      rw [replaced (h.resolve_left later)]

end Synthesis

open Synthesis

/-- Templates that are made with two annotations of one field have the same keys everywhere, and the
same nodes but for that of the field, of which a list keeps its elements. -/
theorem Schema.annotation_stays_in_field {place : Schema.FieldPlace} {d : Defaults}
    {note note' : Option String} {t t' : Template}
    (made : (place.annotated note).template d = .ok t)
    (made' : (place.annotated note').template d = .ok t') :
    t.keyWays = t'.keyWays ∧ (place.IsReplaced → t = t') ∧
      (¬ place.IsReplaced → SameBut
        (fun n n' => ∀ element, place.field.type.target.ListOf element → SameElements n n')
        place.steps t t') := by
  have made := made_of_template made
  have made' := made_of_template made'
  by_cases later : place.field.key ∈ place.after.map Field.key
  · -- The record around the field has one template, whatever the annotation says.
    have owner : ∀ {outer n n'}, Made d outer (place.ownerWith note) n →
        Made d outer (place.ownerWith note') n' → n = n' :=
      fun made made' => (Made.one_field made made' rfl).1 later
    obtain ⟨replaced, shown⟩ := Made.around owner made made'
    have same : t = t' := by
      by_cases h : place.around.IsReplaced
      · exact replaced h
      · exact (shown h).eq
    exact ⟨by rw [same], fun _ => same, fun h => absurd (Or.inl later) h⟩
  · have owner : ∀ {outer n n'}, Made d outer (place.ownerWith note) n →
        Made d outer (place.ownerWith note') n' →
        SameBut (Reannotated place.field.type) [.member place.field.key] n n' := by
      intro outer n n' made made'
      obtain ⟨-, own, own', below, below', differ⟩ := Made.one_field made made' rfl
      obtain ⟨first, last, rfl, rfl⟩ := differ later
      exact .member (.here (below.reannotated below'))
    obtain ⟨replaced, shown⟩ := Made.around owner made made'
    refine ⟨?_, fun h => replaced (h.resolve_left later), fun h => ?_⟩
    · by_cases h : place.around.IsReplaced
      · rw [replaced h]
      · exact (shown h).append.keyWays_eq fun _ _ own => own.keys
    · have differ := (shown fun around => h (Or.inr around)).append
      exact differ.imp fun _ _ own => own.list

def Schema.pageMarks : Schema.FieldPlace where
  around := .field "Book" [⟨"title", none, .string, none⟩] "pages" none (some "min=2")
    (.sequence (.pointer .here)) []
  owner := "Page"
  before := [⟨"number", none, .integer .u8, none⟩]
  field := ⟨"marks", some "m", .pointer (.array .boolean 3), none⟩
  after := [⟨"text", none, .string, some "example=a"⟩]

theorem Schema.pages_with_other_marks :
    ∃ t t', (Schema.pageMarks.annotated none).template {} = .ok t ∧
      (Schema.pageMarks.annotated (some "min=3")).template {} = .ok t' ∧
      ¬ Schema.pageMarks.IsReplaced ∧ t.keyWays = t'.keyWays ∧
      SameBut (fun n n' => ∀ element, (Schema.array .boolean 3).ListOf element → SameElements n n')
        [.member "pages", .items, .member "m"] t t' := by
  obtain ⟨t, made⟩ := eq_ok_of_isSome (o := (Schema.pageMarks.annotated none).template {})
    (by decide +kernel)
  obtain ⟨t', made'⟩ := eq_ok_of_isSome
    (o := (Schema.pageMarks.annotated (some "min=3")).template {}) (by decide +kernel)
  have shown : ¬ Schema.pageMarks.IsReplaced := by
    simp [Schema.pageMarks, Schema.FieldPlace.IsReplaced, Schema.Around.IsReplaced, Field.key]
  obtain ⟨keys, -, differ⟩ := Schema.annotation_stays_in_field made made'
  exact ⟨t, t', made, made', shown, keys, differ shown⟩

end ContractFixture
