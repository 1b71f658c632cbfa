import Mathlib.Data.List.Forall2
import ContractFixture.Proofs.Json.Decode
import ContractFixture.Proofs.Schema.Positions
import ContractFixture.Schema.Wire

/-!
# Schemas survive their documents

At each node a description is free in the order of the members, in members that belong to nothing,
in whether a default is stated, and in whether an absent text is left out or null.
-/

namespace ContractFixture.Schema

open Json (Fills Tells)

/-! ## The documents that describe a schema -/

/-- The members are the stated ones, in any order, and others with keys that are not among its
`own`. -/
def Among (own : List String) (stated members : List (String × Json)) : Prop :=
  ∃ others, (∀ m ∈ others, m.1 ∉ own) ∧ members.Perm (stated ++ others)

inductive StatesText (name : String) : Option String → List (String × Json) → Prop
  | text {text : String} : StatesText name (some text) [(name, .str text)]
  | absent : StatesText name none []
  | null : StatesText name none [(name, .null)]

def fieldKeys : List String := ["name", "wireName", "type", "annotation"]

inductive DescribesField (P : Schema → Json → Prop) : Field Schema → Json → Prop
  | mk {name : String} {wireName hint : Option String} {type : Schema} {document : Json}
      {wire note members : List (String × Json)} (typed : P type document)
      (wired : StatesText "wireName" wireName wire) (noted : StatesText "annotation" hint note)
      (among : Among fieldKeys (("name", .str name) :: ("type", document) :: wire ++ note)
        members) :
      DescribesField P ⟨name, wireName, type, hint⟩ (.obj members)

/-- What the object of a schema states besides the kind, when `P` says which documents describe the
schemas in it. -/
inductive States (P : Schema → Json → Prop) : Schema → List (String × Json) → Prop
  | pointer {target : Schema} {document : Json} (inner : P target document) :
      States P (.pointer target) [("to", document)]
  | sequence {element : Schema} {document : Json} (inner : P element document) :
      States P (.sequence element) [("element", document)]
  | array {element : Schema} {length : UInt64} {document : Json} (inner : P element document) :
      States P (.array element length) [("element", document), ("len", .int length.toNat)]
  | record {name : String} {fields : List (Field Schema)} {items : List Json}
      (each : List.Forall₂ (DescribesField P) fields items) :
      States P (.record name fields) [("name", .str name), ("fields", .arr items)]
  | noFields {name : String} : States P (.record name []) [("name", .str name)]
  | string : States P .string []
  | boolean : States P .boolean []
  | integer {width : IntegerWidth} : States P (.integer width) [("width", .str width.name)]
  | defaultInteger : States P (.integer .i64) []
  | float {width : FloatWidth} : States P (.float width) [("width", .str width.name)]
  | defaultFloat : States P (.float .f64) []
  | map {value : Schema} {document : Json} (inner : P value document) :
      States P (.map value) [("value", document)]
  | any : States P .any []
  | foreign {name : String} : States P (.foreign name) [("name", .str name)]

def Kind.keys (kind : Kind) : List String := "kind" :: kind.parts.map (·.1)

inductive Describes : Schema → Json → Prop
  | mk {s : Schema} {stated members : List (String × Json)} (states : States Describes s stated)
      (among : Among s.kind.keys (("kind", .str s.kind.name) :: stated) members) :
      Describes s (.obj members)

/-! ## Reading the members of an object -/

theorem Among.fills {α : Type} {own : List String} {stated members : List (String × Json)}
    (among : Among own stated members) {meant : String → Prop} [DecidablePred meant]
    (belongs : ∀ key, meant key → key ∈ own) {decode : Json → Decoded α} {result : Option α}
    (tells : Tells decode (stated.filter fun m => meant m.1) result) :
    Fills meant decode none members result := by
  obtain ⟨others, foreign, perm⟩ := among
  have none : others.filter (fun m => decide (meant m.1)) = [] := by
    rw [List.filter_eq_nil_iff]
    intro m member here
    exact foreign m member (belongs m.1 (of_decide_eq_true here))
  have same := perm.filter fun m => decide (meant m.1)
  rw [List.filter_append, none, List.append_nil] at same
  exact Json.fills_of_tells (tells.perm same)

theorem Kind.ofJson_name (nested : Bool) (kind : Kind) :
    Kind.ofJson nested (.str kind.name) = .ok kind := by
  cases kind <;> rfl

theorem ofMembers_of_fills {nested : Bool} {found : Option Kind} {kind : Kind}
    {members : List (String × Json)}
    (h : Fills (· = "kind") (Kind.ofJson nested) found members (some kind)) :
    Kind.ofMembers nested found members = .ok kind := by
  induction members generalizing found with
  | nil =>
    rw [← h.eq_of_nil]
    rfl
  | cons m rest ih =>
    obtain ⟨key, value⟩ := m
    unfold Kind.ofMembers
    split
    · rename_i here
      obtain ⟨x, taken, next⟩ := h.take here "kind"
      rw [taken]
      exact ih next
    · rename_i elsewhere
      exact ih (h.skip elsewhere)

structure Draft.Filled (kind : Kind) (draft : Draft) (members : List (String × Json))
    (result : Draft) : Prop where
  target : Fills (kind.part? · = some .target) (decode true) draft.target members result.target
  length : Fills (kind.part? · = some .length) Json.count draft.length members result.length
  name : Fills (kind.part? · = some .name) Json.string draft.name members result.name
  fields : Fills (kind.part? · = some .fields) decodeFields draft.fields members result.fields
  integerWidth : Fills (kind.part? · = some .integerWidth)
    (Json.choose IntegerWidth.choices true) draft.integerWidth members result.integerWidth
  floatWidth : Fills (kind.part? · = some .floatWidth)
    (Json.choose FloatWidth.choices true) draft.floatWidth members result.floatWidth

theorem addMembers_of_filled {kind : Kind} {draft result : Draft}
    {members : List (String × Json)} (h : draft.Filled kind members result) :
    addMembers kind draft members = .ok result := by
  induction members generalizing draft with
  | nil =>
    obtain ⟨target, length, name, fields, integerWidth, floatWidth⟩ := h
    cases draft
    cases result
    cases target.eq_of_nil
    cases length.eq_of_nil
    cases name.eq_of_nil
    cases fields.eq_of_nil
    cases integerWidth.eq_of_nil
    cases floatWidth.eq_of_nil
    rfl
  | cons m rest ih =>
    obtain ⟨key, value⟩ := m
    obtain ⟨target, length, name, fields, integerWidth, floatWidth⟩ := h
    have other : ∀ {p q : Part}, kind.part? key = some p → p ≠ q → ¬ kind.part? key = some q :=
      fun part differ same => differ (Option.some.inj (part.symm.trans same))
    unfold addMembers
    split
    · rename_i none
      have elsewhere : ∀ q, ¬ kind.part? key = some q := by simp [none]
      exact ih ⟨target.skip (elsewhere _), length.skip (elsewhere _), name.skip (elsewhere _),
        fields.skip (elsewhere _), integerWidth.skip (elsewhere _), floatWidth.skip (elsewhere _)⟩
    · rename_i part
      obtain ⟨x, taken, target⟩ := target.take part key
      rw [taken]
      exact ih ⟨target, length.skip (other part nofun), name.skip (other part nofun),
        fields.skip (other part nofun), integerWidth.skip (other part nofun),
        floatWidth.skip (other part nofun)⟩
    · rename_i part
      obtain ⟨x, taken, length⟩ := length.take part key
      rw [taken]
      exact ih ⟨target.skip (other part nofun), length, name.skip (other part nofun),
        fields.skip (other part nofun), integerWidth.skip (other part nofun),
        floatWidth.skip (other part nofun)⟩
    · rename_i part
      obtain ⟨x, taken, name⟩ := name.take part key
      rw [taken]
      exact ih ⟨target.skip (other part nofun), length.skip (other part nofun), name,
        fields.skip (other part nofun), integerWidth.skip (other part nofun),
        floatWidth.skip (other part nofun)⟩
    · rename_i part
      obtain ⟨x, taken, fields⟩ := fields.take part key
      dsimp only
      rw [taken]
      exact ih ⟨target.skip (other part nofun), length.skip (other part nofun),
        name.skip (other part nofun), fields, integerWidth.skip (other part nofun),
        floatWidth.skip (other part nofun)⟩
    · rename_i part
      obtain ⟨x, taken, integerWidth⟩ := integerWidth.take part key
      dsimp only
      rw [taken]
      exact ih ⟨target.skip (other part nofun), length.skip (other part nofun),
        name.skip (other part nofun), fields.skip (other part nofun), integerWidth,
        floatWidth.skip (other part nofun)⟩
    · rename_i part
      obtain ⟨x, taken, floatWidth⟩ := floatWidth.take part key
      dsimp only
      rw [taken]
      exact ih ⟨target.skip (other part nofun), length.skip (other part nofun),
        name.skip (other part nofun), fields.skip (other part nofun),
        integerWidth.skip (other part nofun), floatWidth⟩

structure Draft.Told (kind : Kind) (stated : List (String × Json)) (result : Draft) : Prop where
  target : Tells (decode true) (stated.filter fun m => kind.part? m.1 = some .target) result.target
  length : Tells Json.count (stated.filter fun m => kind.part? m.1 = some .length) result.length
  name : Tells Json.string (stated.filter fun m => kind.part? m.1 = some .name) result.name
  fields : Tells decodeFields (stated.filter fun m => kind.part? m.1 = some .fields) result.fields
  integerWidth : Tells (Json.choose IntegerWidth.choices true)
    (stated.filter fun m => kind.part? m.1 = some .integerWidth) result.integerWidth
  floatWidth : Tells (Json.choose FloatWidth.choices true)
    (stated.filter fun m => kind.part? m.1 = some .floatWidth) result.floatWidth

theorem told_nil (kind : Kind) : Draft.Told kind [] {} :=
  ⟨.nothing, .nothing, .nothing, .nothing, .nothing, .nothing⟩

theorem part?_kind (kind : Kind) : kind.part? "kind" = none := by
  cases kind <;> rfl

theorem mem_keys_of_part {kind : Kind} {key : String} {part : Part}
    (h : kind.part? key = some part) : key ∈ kind.keys := by
  obtain ⟨entry, found, -⟩ := Option.map_eq_some_iff.mp h
  have member := List.mem_of_find?_eq_some found
  have same := List.find?_some found
  simp only [beq_iff_eq] at same
  exact List.mem_cons_of_mem _ (List.mem_map.mpr ⟨entry, member, same⟩)

theorem filled_of_told {kind : Kind} {name : Json} {stated members : List (String × Json)}
    {result : Draft} (among : Among kind.keys (("kind", name) :: stated) members)
    (told : result.Told kind stated) : Draft.Filled kind {} members result := by
  -- The kind itself is no part, so the other members alone fill the draft.
  have apart : ∀ part, (("kind", name) :: stated).filter (fun m => kind.part? m.1 = some part) =
      stated.filter fun m => kind.part? m.1 = some part := by
    intro part
    simp [part?_kind]
  constructor
  · exact among.fills (fun _ => mem_keys_of_part) (apart _ ▸ told.target)
  · exact among.fills (fun _ => mem_keys_of_part) (apart _ ▸ told.length)
  · exact among.fills (fun _ => mem_keys_of_part) (apart _ ▸ told.name)
  · exact among.fills (fun _ => mem_keys_of_part) (apart _ ▸ told.fields)
  · exact among.fills (fun _ => mem_keys_of_part) (apart _ ▸ told.integerWidth)
  · exact among.fills (fun _ => mem_keys_of_part) (apart _ ▸ told.floatWidth)

theorem States.ne_kind {P : Schema → Json → Prop} {s : Schema} {stated : List (String × Json)}
    (h : States P s stated) : ∀ m ∈ stated, m.1 ≠ "kind" := by
  cases h <;> simp

/-- What is stated besides the kind makes a draft that is finished as the schema. -/
def Complete (s : Schema) : Prop :=
  ∀ {stated : List (String × Json)}, States Describes s stated →
    ∃ draft : Draft, draft.Told s.kind stated ∧ draft.finish s.kind .missingField = .ok s

theorem decode_of_complete {s : Schema} {document : Json} (complete : Complete s)
    (h : Describes s document) (nested : Bool) : decode nested document = .ok s := by
  obtain @⟨_, stated, members, states, among⟩ := h
  obtain ⟨draft, told, finished⟩ := complete states
  have kinded : Kind.ofMembers nested none members = .ok s.kind := by
    refine ofMembers_of_fills (among.fills (by rintro _ rfl; exact List.mem_cons_self ..) ?_)
    have alone : stated.filter (fun m => m.1 = "kind") = [] :=
      List.filter_eq_nil_iff.mpr fun m member => by simpa using states.ne_kind m member
    rw [List.filter_cons_of_pos (by simp), alone]
    exact .one (Kind.ofJson_name nested s.kind)
  rw [decode, kinded]
  simp only [bind, Except.bind, addMembers_of_filled (filled_of_told among told), finished]

/-! ## Reading a field -/

structure FieldDraft.Filled (draft : FieldDraft) (members : List (String × Json))
    (result : FieldDraft) : Prop where
  name : Fills (· = "name") Json.string draft.name members result.name
  wireName : Fills (· = "wireName") (Json.optional Json.string) draft.wireName members
    result.wireName
  type : Fills (· = "type") (decode true) draft.type members result.type
  hint : Fills (· = "annotation") (Json.optional Json.string) draft.hint members result.hint

theorem addFieldMembers_of_filled {draft result : FieldDraft} {members : List (String × Json)}
    (h : draft.Filled members result) : addFieldMembers draft members = .ok result := by
  induction members generalizing draft with
  | nil =>
    obtain ⟨name, wireName, type, hint⟩ := h
    cases draft
    cases result
    cases name.eq_of_nil
    cases wireName.eq_of_nil
    cases type.eq_of_nil
    cases hint.eq_of_nil
    rfl
  | cons m rest ih =>
    obtain ⟨key, value⟩ := m
    obtain ⟨name, wireName, type, hint⟩ := h
    unfold addFieldMembers
    split
    · obtain ⟨x, taken, name⟩ := name.take rfl "name"
      rw [taken]
      exact ih ⟨name, wireName.skip (by decide), type.skip (by decide), hint.skip (by decide)⟩
    · obtain ⟨x, taken, wireName⟩ := wireName.take rfl "wireName"
      dsimp only
      rw [taken]
      exact ih ⟨name.skip (by decide), wireName, type.skip (by decide), hint.skip (by decide)⟩
    · obtain ⟨x, taken, type⟩ := type.take rfl "type"
      rw [taken]
      exact ih ⟨name.skip (by decide), wireName.skip (by decide), type, hint.skip (by decide)⟩
    · obtain ⟨x, taken, hint⟩ := hint.take rfl "annotation"
      dsimp only
      rw [taken]
      exact ih ⟨name.skip (by decide), wireName.skip (by decide), type.skip (by decide), hint⟩
    · rename_i noName noWireName noType noHint
      exact ih ⟨name.skip noName, wireName.skip noWireName, type.skip noType, hint.skip noHint⟩

theorem StatesText.filter_eq {name : String} {text : Option String}
    {stated : List (String × Json)} (h : StatesText name text stated) (key : String) :
    stated.filter (fun m => m.1 = key) = if name = key then stated else [] := by
  cases h <;> simp [List.filter_cons]

theorem StatesText.tells {name : String} {text : Option String} {stated : List (String × Json)}
    (h : StatesText name text stated) :
    ∃ told, Tells (Json.optional Json.string) stated told ∧ told.join = text := by
  cases h with
  | @text text => exact ⟨some (some text), .one rfl, rfl⟩
  | absent => exact ⟨none, .nothing, rfl⟩
  | null => exact ⟨some none, .one rfl, rfl⟩

theorem decodeField_described {P : Schema → Json → Prop} {field : Field Schema} {document : Json}
    (h : DescribesField P field document)
    (read : ∀ d, P field.type d → decode true d = .ok field.type) :
    decodeField document = .ok field := by
  obtain @⟨name, _, _, type, d, wire, note, members, typed, wired, noted, among⟩ := h
  obtain ⟨wireTold, wireTells, rfl⟩ := wired.tells
  obtain ⟨noteTold, noteTells, rfl⟩ := noted.tells
  have nameTells : Tells Json.string [("name", .str name)] (some name) := .one rfl
  have typeTells : Tells (decode true) [("type", d)] (some type) := .one (read d typed)
  have filled : FieldDraft.Filled {} members ⟨some name, wireTold, some type, noteTold⟩ := by
    constructor
    · refine among.fills (by rintro _ rfl; decide) ?_
      simpa [wired.filter_eq, noted.filter_eq] using nameTells
    · refine among.fills (by rintro _ rfl; decide) ?_
      simpa [wired.filter_eq, noted.filter_eq] using wireTells
    · refine among.fills (by rintro _ rfl; decide) ?_
      simpa [wired.filter_eq, noted.filter_eq] using typeTells
    · refine among.fills (by rintro _ rfl; decide) ?_
      simpa [wired.filter_eq, noted.filter_eq] using noteTells
  rw [decodeField, addFieldMembers_of_filled filled]
  rfl

theorem fieldsOfItems_described {P : Schema → Json → Prop} {fields : List (Field Schema)}
    {items : List Json} (each : List.Forall₂ (DescribesField P) fields items)
    (read : ∀ f ∈ fields, ∀ d, P f.type d → decode true d = .ok f.type) :
    fieldsOfItems items = .ok fields := by
  induction each with
  | nil => rfl
  | cons first _ ih =>
    obtain ⟨readFirst, readOthers⟩ := List.forall_mem_cons.mp read
    rw [fieldsOfItems, decodeField_described first readFirst, ih readOthers]
    rfl

/-! ## Reading a schema -/

theorem complete (s : Schema) : Complete s := by
  intro stated states
  induction s generalizing stated with
  | pointer target ih =>
    cases states with
    | pointer inner =>
      exact ⟨{ target := some target }, ⟨.one (decode_of_complete ih inner true), .nothing,
        .nothing, .nothing, .nothing, .nothing⟩, rfl⟩
  | sequence element ih =>
    cases states with
    | sequence inner =>
      exact ⟨{ target := some element }, ⟨.one (decode_of_complete ih inner true), .nothing,
        .nothing, .nothing, .nothing, .nothing⟩, rfl⟩
  | array element length ih =>
    cases states with
    | array inner =>
      exact ⟨{ target := some element, length := some length },
        ⟨.one (decode_of_complete ih inner true), .one (Json.count_toNat length), .nothing,
          .nothing, .nothing, .nothing⟩, rfl⟩
  | record name fields ih =>
    cases states with
    | record each =>
      have read := fieldsOfItems_described each fun f member d described =>
        decode_of_complete (ih f member) described true
      exact ⟨{ name := some name, fields := some fields },
        ⟨.nothing, .nothing, .one rfl, .one read, .nothing, .nothing⟩, rfl⟩
    | noFields =>
      exact ⟨{ name := some name }, ⟨.nothing, .nothing, .one rfl, .nothing, .nothing, .nothing⟩,
        rfl⟩
  | string =>
    cases states
    exact ⟨{}, told_nil _, rfl⟩
  | boolean =>
    cases states
    exact ⟨{}, told_nil _, rfl⟩
  | integer width =>
    cases states with
    | integer =>
      have read : Json.choose IntegerWidth.choices true (.str width.name) = .ok width := by
        cases width <;> rfl
      exact ⟨{ integerWidth := some width },
        ⟨.nothing, .nothing, .nothing, .nothing, .one read, .nothing⟩, rfl⟩
    | defaultInteger => exact ⟨{}, told_nil _, rfl⟩
  | float width =>
    cases states with
    | float =>
      have read : Json.choose FloatWidth.choices true (.str width.name) = .ok width := by
        cases width <;> rfl
      exact ⟨{ floatWidth := some width },
        ⟨.nothing, .nothing, .nothing, .nothing, .nothing, .one read⟩, rfl⟩
    | defaultFloat => exact ⟨{}, told_nil _, rfl⟩
  | map value ih =>
    cases states with
    | map inner =>
      exact ⟨{ target := some value }, ⟨.one (decode_of_complete ih inner true), .nothing,
        .nothing, .nothing, .nothing, .nothing⟩, rfl⟩
  | any =>
    cases states
    exact ⟨{}, told_nil _, rfl⟩
  | foreign name =>
    cases states
    exact ⟨{ name := some name }, ⟨.nothing, .nothing, .one rfl, .nothing, .nothing, .nothing⟩,
      rfl⟩

/-! ## The document that a schema is written as -/

theorem among_of_perm {stated members : List (String × Json)} (own : List String)
    (perm : members.Perm stated) : Among own stated members := by
  refine ⟨[], by simp, ?_⟩
  rwa [List.append_nil]

theorem statesText_textMember (name : String) (text : Option String) :
    StatesText name text (textMember name text) := by
  cases text with
  | none => exact .absent
  | some text => exact .text

theorem describes_fieldsToJson {fields : List (Field Schema)}
    (each : ∀ f ∈ fields, Describes f.type f.type.toJson) :
    List.Forall₂ (DescribesField Describes) fields (fieldsToJson fields) := by
  induction fields with
  | nil => exact .nil
  | cons f rest ih =>
    obtain ⟨first, others⟩ := List.forall_mem_cons.mp each
    obtain ⟨name, wireName, type, hint⟩ := f
    have wired := statesText_textMember "wireName" wireName
    have noted := statesText_textMember "annotation" hint
    exact .cons (.mk first wired noted (among_of_perm _ List.perm_append_comm)) (ih others)

theorem describes_toJson (s : Schema) : Describes s s.toJson := by
  induction s with
  | pointer target ih => exact .mk (.pointer ih) (among_of_perm _ (.refl _))
  | sequence element ih => exact .mk (.sequence ih) (among_of_perm _ (.swap ..))
  | array element length ih => exact .mk (.array ih) (among_of_perm _ (.swap ..))
  | record name fields ih =>
    refine .mk (.record (describes_fieldsToJson ih)) (among_of_perm _ ?_)
    exact (List.Perm.swap ..).trans (.cons _ (.swap ..))
  | string => exact .mk .string (among_of_perm _ (.refl _))
  | boolean => exact .mk .boolean (among_of_perm _ (.refl _))
  | integer width => exact .mk .integer (among_of_perm _ (.refl _))
  | float width => exact .mk .float (among_of_perm _ (.refl _))
  | map value ih => exact .mk (.map ih) (among_of_perm _ (.refl _))
  | any => exact .mk .any (among_of_perm _ (.refl _))
  | foreign name => exact .mk .foreign (among_of_perm _ (.refl _))

/-- A schema is read back from the document that it is written as, and from every other one that
describes it. -/
theorem ofJson_described (s : Schema) :
    ofJson s.toJson = .ok s ∧ ∀ document, Describes s document → ofJson document = .ok s :=
  ⟨decode_of_complete (complete s) (describes_toJson s) false,
    fun _ described => decode_of_complete (complete s) described false⟩

theorem ofJson_described_record :
    ofJson (.obj
      [("fields", .arr [.obj [("name", .str "id"),
        ("type", .obj [("kind", .str "integer"), ("unit", .null)]), ("wireName", .null)]]),
      ("kind", .str "struct"), ("name", .str "Account")]) =
    .ok (.record "Account" [⟨"id", none, .integer .i64, none⟩]) := by
  -- The width is left out, a stranger is added and the absent name is null.
  have type : Describes (.integer .i64) (.obj [("kind", .str "integer"), ("unit", .null)]) :=
    .mk .defaultInteger ⟨[("unit", .null)], by decide, .refl _⟩
  have field : DescribesField Describes ⟨"id", none, .integer .i64, none⟩
      (.obj [("name", .str "id"), ("type", .obj [("kind", .str "integer"), ("unit", .null)]),
        ("wireName", .null)]) :=
    .mk type .null .absent (among_of_perm _ (.refl _))
  refine (ofJson_described _).2 _ (.mk (.record (.cons field .nil)) (among_of_perm _ ?_))
  exact (List.Perm.swap ..).trans (.cons _ (.swap ..))

end ContractFixture.Schema
