import Mathlib.Data.List.Forall2
import ContractFixture.Proofs.Keyed
import ContractFixture.Proofs.Json.Documents

/-! # The content of a document -/

namespace ContractFixture.Json

@[elab_as_elim, induction_eliminator]
theorem node_induction {motive : Json → Prop} (null : motive .null)
    (bool : ∀ value, motive (.bool value)) (num : ∀ value, motive (.num value))
    (str : ∀ text, motive (.str text))
    (arr : ∀ items, (∀ item ∈ items, motive item) → motive (.arr items))
    (obj : ∀ members, (∀ m ∈ members, motive m.2) → motive (.obj members))
    (document : Json) : motive document :=
  @Json.rec motive (fun items => ∀ item ∈ items, motive item)
    (fun members => ∀ m ∈ members, motive m.2) (fun m => motive m.2)
    null bool num str arr obj
    (fun _ member => absurd member List.not_mem_nil)
    (fun _ _ first others => List.forall_mem_cons.mpr ⟨first, others⟩)
    (fun _ member => absurd member List.not_mem_nil)
    (fun _ _ first others => List.forall_mem_cons.mpr ⟨first, others⟩)
    (fun _ _ value => value)
    document

/-! ## Content -/

/-- At one key, two values of which `P` holds. -/
inductive Under (P : Json → Json → Prop) : String × Json → String × Json → Prop
  | mk {key : String} {written said : Json} (h : P written said) :
      Under P (key, written) (key, said)

/-- What a written document says. -/
inductive HasContent : Json → Json → Prop
  | null : HasContent .null .null
  | bool {value : Bool} : HasContent (.bool value) (.bool value)
  | num {value : Number} : HasContent (.num value) (.num value)
  | str {text : String} : HasContent (.str text) (.str text)
  | arr {items contents : List Json} (each : List.Forall₂ HasContent items contents) :
      HasContent (.arr items) (.arr contents)
  | obj {members contents entries : List (String × Json)}
      (each : List.Forall₂ (Under HasContent) members contents)
      (settled : Keyed.LastWins contents entries) : HasContent (.obj members) (.obj entries)

theorem canonicalItems_eq (items : List Json) : canonicalItems items = items.map canonical := by
  induction items with
  | nil => rfl
  | cons item rest ih => rw [canonicalItems, ih, List.map_cons]

theorem canonicalMembers_eq (members : List (String × Json)) :
    canonicalMembers members = members.map fun m => (m.1, m.2.canonical) := by
  induction members with
  | nil => rfl
  | cons m rest ih => rw [canonicalMembers, ih, List.map_cons]

theorem forall₂_iff_eq_map {α β : Type} {R : α → β → Prop} {f : α → β} {l : List α} {l' : List β}
    (h : ∀ a ∈ l, ∀ b, R a b ↔ b = f a) : List.Forall₂ R l l' ↔ l' = l.map f := by
  induction l generalizing l' with
  | nil => exact List.forall₂_nil_left_iff
  | cons a l ih =>
    have first := h a (List.mem_cons_self ..)
    have others : ∀ l', List.Forall₂ R l l' ↔ l' = l.map f :=
      fun l' => ih fun a member => h a (List.mem_cons_of_mem _ member)
    rw [List.forall₂_cons_left_iff, List.map_cons]
    constructor
    · rintro ⟨b, l', isValue, areValues, rfl⟩
      rw [(first b).mp isValue, (others l').mp areValues]
    · rintro rfl
      exact ⟨f a, l.map f, (first _).mpr rfl, (others _).mpr rfl, rfl⟩

theorem under_iff {P : Json → Json → Prop} {m m' : String × Json} {said : Json}
    (h : ∀ v, P m.2 v ↔ v = said) : Under P m m' ↔ m' = (m.1, said) := by
  constructor
  · rintro ⟨holds⟩
    rw [(h _).mp holds]
  · rintro rfl
    exact ⟨(h _).mpr rfl⟩

theorem hasContent_iff {written said : Json} :
    written.HasContent said ↔ said = written.canonical := by
  induction written generalizing said with
  | arr items ih =>
    have each : ∀ contents, List.Forall₂ HasContent items contents ↔
        contents = items.map canonical :=
      fun contents => forall₂_iff_eq_map fun item member said => ih item member
    rw [canonical, canonicalItems_eq]
    constructor
    · intro h
      cases h with
      | arr holds => rw [(each _).mp holds]
    · rintro rfl
      exact .arr ((each _).mpr rfl)
  | obj members ih =>
    have each : ∀ contents, List.Forall₂ (Under HasContent) members contents ↔
        contents = members.map fun m => (m.1, m.2.canonical) :=
      fun contents => forall₂_iff_eq_map fun m member m' => under_iff fun said => ih m member
    rw [canonical, canonicalMembers_eq]
    constructor
    · intro h
      cases h with
      | obj holds settled => rw [Keyed.lastWins_iff.mp settled, (each _).mp holds]
    · rintro rfl
      exact .obj ((each _).mpr rfl) (Keyed.lastWins_iff.mpr rfl)
  | _ =>
    constructor
    · rintro ⟨⟩
      rfl
    · rintro rfl
      constructor

/-! ## Documents in canonical form -/

theorem isCanonical_arr_iff {items : List Json} :
    (arr items).IsCanonical ↔ ∀ item ∈ items, item.IsCanonical := by
  rw [IsCanonical]
  induction items with
  | nil => simp [AreCanonical]
  | cons item rest ih => rw [AreCanonical, ih, List.forall_mem_cons]

theorem isCanonical_obj_iff {members : List (String × Json)} :
    (obj members).IsCanonical ↔ Keyed.Sorted members ∧ ∀ m ∈ members, m.2.IsCanonical := by
  have each : HasCanonicalMembers members ↔ ∀ m ∈ members, m.2.IsCanonical := by
    induction members with
    | nil => simp [HasCanonicalMembers]
    | cons m rest ih => rw [HasCanonicalMembers, ih, List.forall_mem_cons]
  rw [IsCanonical, each]

theorem canonical_of_isCanonical {document : Json} (h : document.IsCanonical) :
    document.canonical = document := by
  induction document with
  | arr items ih =>
    rw [isCanonical_arr_iff] at h
    have same : items.map canonical = items.map id :=
      List.map_congr_left fun item member => ih item member (h item member)
    rw [canonical, canonicalItems_eq, same, List.map_id]
  | obj members ih =>
    obtain ⟨sorted, each⟩ := isCanonical_obj_iff.mp h
    have same : (members.map fun m => (m.1, m.2.canonical)) = members.map id :=
      List.map_congr_left fun m member => Prod.ext rfl (ih m member (each m member))
    rw [canonical, canonicalMembers_eq, same, List.map_id, Keyed.ofList_of_sorted sorted]
  | _ => rfl

theorem canonical_obj_of_perm {members given : List (String × Json)}
    (h : (obj members).IsCanonical) (perm : given.Perm members) :
    (obj given).canonical = obj members := by
  obtain ⟨sorted, each⟩ := isCanonical_obj_iff.mp h
  have same : (given.map fun m => (m.1, m.2.canonical)) = given.map id :=
    List.map_congr_left fun m member =>
      Prod.ext rfl (canonical_of_isCanonical (each m (perm.mem_iff.mp member)))
  rw [canonical, canonicalMembers_eq, same, List.map_id, Keyed.ofList_of_perm sorted perm]

/-! ## Texts with a content -/

theorem readRaw_eq_ok_iff {n : Nat} {text : String} {written : Json} :
    readRaw n text = .ok written ↔ Grammar.Document text.toList written ∧ written.depth ≤ n := by
  rw [← Reader.readChars_eq_ok_iff, readRaw]
  cases readChars n text.toList <;> simp [Except.mapError]

theorem parse_eq_ok_iff {text : String} {document : Json} :
    parse text = .ok document ↔ ∃ written, Grammar.Document text.toList written ∧
      written.depth ≤ maxDepth ∧ document = written.canonical := by
  constructor
  · intro h
    obtain ⟨written, read, rfl⟩ := map_eq_ok h
    obtain ⟨derived, within⟩ := readRaw_eq_ok_iff.mp read
    exact ⟨written, derived, within, rfl⟩
  · rintro ⟨written, derived, within, rfl⟩
    rw [parse, readRaw_eq_ok_iff.mpr ⟨derived, within⟩]
    rfl

theorem parse_of_deep {text : String} {written : Json}
    (h : Grammar.Document text.toList written) (deep : maxDepth < written.depth) :
    ∃ e, parse text = .error e ∧ e.fault = .tooDeep := by
  obtain ⟨stop, refused, fault⟩ := Reader.readChars_of_deep h deep
  rw [parse, readRaw, refused]
  exact ⟨_, rfl, fault⟩

/-- A text is read exactly if the grammar derives a document from it that nests at most 127
containers, and what is read is the content of that document. -/
theorem parse_reads_grammar (text : String) :
    (∀ document, parse text = .ok document ↔
      ∃ written, Grammar.Document text.toList written ∧ written.depth ≤ 127 ∧
        written.HasContent document) ∧
    ((∃ malformed, parse text = .error malformed) ↔
      ¬ ∃ written, Grammar.Document text.toList written ∧ written.depth ≤ 127) := by
  constructor
  · intro document
    rw [parse_eq_ok_iff]
    simp only [hasContent_iff, maxDepth]
  · constructor
    · rintro ⟨malformed, refused⟩ ⟨written, derived, within⟩
      have read := parse_eq_ok_iff.mpr ⟨written, derived, within, rfl⟩
      rw [refused] at read
      cases read
    · intro underived
      cases read : parse text with
      | error malformed => exact ⟨malformed, rfl⟩
      | ok document =>
        obtain ⟨written, derived, within, -⟩ := parse_eq_ok_iff.mp read
        exact absurd ⟨written, derived, within⟩ underived

end ContractFixture.Json
