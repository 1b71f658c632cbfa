import ContractFixture.Proofs.Path.Text

/-! # Beginnings of a path -/

namespace ContractFixture.Path

/-! ## Where a step can end -/

def AtBoundary (text : List Char) : Prop := ∀ c ∈ text.head?, c = '.' ∨ c = '['

theorem atBoundary_nil : AtBoundary [] := nofun

theorem atBoundary_stepsText_append {text : List Char} (h : AtBoundary text) (steps : List Step) :
    AtBoundary (stepsText steps ++ text) := by
  cases steps with
  | nil => exact h
  | cons first rest =>
    cases first with
    | member name =>
      rintro c ⟨⟩
      exact Or.inl rfl
    | items =>
      rintro c ⟨⟩
      exact Or.inr rfl

theorem atBoundary_stepsText (steps : List Step) : AtBoundary (stepsText steps) := by
  simpa using atBoundary_stepsText_append atBoundary_nil steps

/-! ## Bare names -/

/-- The name holds no character that a step begins with. -/
def BareName (name : String) : Prop := '.' ∉ name.toList ∧ '[' ∉ name.toList

instance (name : String) : Decidable (BareName name) :=
  inferInstanceAs (Decidable (_ ∧ _))

theorem BareName.plain {name : String} (h : BareName name) : PlainName name :=
  .of_no_bracket h.1 h.2

theorem BareName.no_boundary {name : String} (h : BareName name) {c : Char}
    (member : c ∈ name.toList) : ¬ (c = '.' ∨ c = '[') := by
  rintro (rfl | rfl)
  · exact h.1 member
  · exact h.2 member

theorem name_of_boundary {name other : String} (bare : BareName name) (bare' : BareName other)
    {text text' : List Char} (boundary : AtBoundary text) (boundary' : AtBoundary text')
    (h : name.toList ++ text = other.toList ++ text') : name = other ∧ text = text' := by
  -- What one name held more than the other would begin like a step.
  have none_left : ∀ {a b : String} {taken behind : List Char}, BareName b →
      b.toList = a.toList ++ taken → AtBoundary (taken ++ behind) → taken = [] := by
    intro a b taken behind bare split boundary
    cases taken with
    | nil => rfl
    | cons c taken => exact absurd (boundary c rfl) (bare.no_boundary (by simp [split]))
  rcases List.append_eq_append_iff.mp h with ⟨taken, split, rfl⟩ | ⟨taken, split, rfl⟩
  · obtain rfl := none_left bare' split boundary
    exact ⟨String.toList_inj.mp (by simpa using split.symm), rfl⟩
  · obtain rfl := none_left bare split boundary'
    exact ⟨String.toList_inj.mp (by simpa using split), rfl⟩

/-! ## Steps with bare names -/

def Bare (steps : List Step) : Prop := ∀ name, .member name ∈ steps → BareName name

theorem Bare.tail {first : Step} {rest : List Step} (h : Bare (first :: rest)) : Bare rest :=
  fun name member => h name (List.mem_cons_of_mem _ member)

theorem prefix_of_text {steps others : List Step} (bare : Bare steps) (bare' : Bare others)
    {text : List Char} (boundary : AtBoundary text)
    (h : stepsText others = stepsText steps ++ text) : steps <+: others := by
  induction steps generalizing others with
  | nil => exact List.nil_prefix
  | cons first rest ih =>
    cases others with
    | nil => cases first <;> simp at h
    | cons first' rest' =>
      cases first with
      | member name =>
        cases first' with
        | member other =>
          simp only [stepsText_member, List.cons_append, List.append_assoc, List.cons.injEq,
            true_and] at h
          obtain ⟨rfl, behind⟩ := name_of_boundary (bare' other (List.mem_cons_self ..))
            (bare name (List.mem_cons_self ..)) (atBoundary_stepsText rest')
            (atBoundary_stepsText_append boundary rest) h
          exact (List.prefix_cons_inj _).mpr (ih bare.tail bare'.tail behind)
        | items => simp at h
      | items =>
        cases first' with
        | member other => simp at h
        | items =>
          simp only [stepsText_items, List.cons_append, List.cons.injEq, true_and] at h
          exact (List.prefix_cons_inj _).mpr (ih bare.tail bare'.tail h)

/-! ## The text of a path that goes on -/

theorem text_follow_append (path : Path) (steps more : List Step) :
    (path.follow (steps ++ more)).text.toList =
      (path.follow steps).text.toList ++ stepsText more := by
  rw [toList_text_follow, toList_text_follow, stepsText, List.flatMap_append, List.append_assoc]
  rfl

def openings : List String := [".", "["]

theorem atBoundary_opening {opening : String} (listed : opening ∈ openings) (text : List Char) :
    AtBoundary (opening.toList ++ text) := by
  simp only [openings, List.mem_cons, List.not_mem_nil, or_false] at listed
  rcases listed with rfl | rfl
  · rintro c ⟨⟩
    exact Or.inl rfl
  · rintro c ⟨⟩
    exact Or.inr rfl

theorem exists_opening {steps : List Step} (some : steps ≠ []) :
    ∃ opening ∈ openings, ∃ rest : String,
      stepsText steps = opening.toList ++ rest.toList := by
  obtain ⟨first, rest, rfl⟩ := List.exists_cons_of_ne_nil some
  cases first with
  | member name => exact ⟨".", by simp [openings], name ++ .ofList (stepsText rest), by simp⟩
  | items => exact ⟨"[", by simp [openings], "*]" ++ .ofList (stepsText rest), by simp⟩

/-- The text of the path after the steps, or one that goes on after it with a step. -/
def GoesOn (steps : List Step) (text : String) : Prop :=
  text = (root.follow steps).text ∨
    ∃ opening ∈ openings, ∃ rest, text = (root.follow steps).text ++ opening ++ rest

theorem goesOn_append (steps more : List Step) :
    GoesOn steps (root.follow (steps ++ more)).text := by
  have text := text_follow_append root steps more
  by_cases none : more = []
  · subst none
    exact Or.inl (by rw [List.append_nil])
  · obtain ⟨opening, listed, rest, begins⟩ := exists_opening none
    refine Or.inr ⟨opening, listed, rest, String.toList_inj.mp ?_⟩
    rw [text, begins, String.toList_append, String.toList_append, List.append_assoc]

theorem exists_boundary_of_goesOn {steps : List Step} {text : String} (h : GoesOn steps text) :
    ∃ behind, AtBoundary behind ∧ text.toList = (root.follow steps).text.toList ++ behind := by
  rcases h with rfl | ⟨opening, listed, rest, rfl⟩
  · exact ⟨[], atBoundary_nil, (List.append_nil _).symm⟩
  · exact ⟨opening.toList ++ rest.toList, atBoundary_opening listed _, by simp⟩

/-- Where names are bare, the path tells the steps from the root, and its text tells the paths that
it goes on from. -/
theorem path_tells_way {steps others : List Step} (bare : Bare steps) (bare' : Bare others) :
    (root.follow steps = root.follow others ↔ steps = others) ∧
      (steps <+: others ↔ GoesOn steps (root.follow others).text) := by
  refine ⟨⟨fun same => ?_, fun same => by rw [same]⟩, ?_, fun longer => ?_⟩
  · exact steps_eq_of_text_eq (fun name member => (bare name member).plain)
      (fun name member => (bare' name member).plain) (follow_eq_iff.mp same)
  · rintro ⟨more, rfl⟩
    exact goesOn_append steps more
  · obtain ⟨behind, boundary, text⟩ := exists_boundary_of_goesOn longer
    rw [toList_text_follow, toList_text_follow, List.append_assoc,
      List.append_cancel_left_eq] at text
    exact prefix_of_text bare bare' boundary text

theorem path_tells_items_of_unnamed :
    Bare [.member "", .items] ∧ Bare [.member "", .items, .items, .member "id"] ∧
      (root.follow [.member "", .items, .items, .member "id"]).text =
        (root.follow [.member "", .items]).text ++ "[" ++ "*].id" ∧
      ([Step.member "", .items] <+: [.member "", .items, .items, .member "id"]) := by
  have bare : Bare [.member "", .items] := by
    intro name member
    simp at member
    subst member
    decide
  have bare' : Bare [.member "", .items, .items, .member "id"] := by
    intro name member
    simp at member
    rcases member with rfl | rfl <;> decide
  have longer : (root.follow [.member "", .items, .items, .member "id"]).text =
      (root.follow [.member "", .items]).text ++ "[" ++ "*].id" := by decide
  refine ⟨bare, bare', longer, ?_⟩
  exact (path_tells_way bare bare').2.mpr (Or.inr ⟨"[", by simp [openings], "*].id", longer⟩)

end ContractFixture.Path
