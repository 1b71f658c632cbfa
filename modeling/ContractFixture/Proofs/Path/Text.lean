import ContractFixture.Path

/-!
# The text of a path

Nothing in the text of a path closes a name, so a name may look like more than one step. A plain
name does not.
-/

namespace ContractFixture.Path

/-! ## The text of steps -/

def Step.text : Step → List Char
  | .member name => '.' :: name.toList
  | .items => ['[', '*', ']']

def stepsText (steps : List Step) : List Char := steps.flatMap Step.text

@[simp] theorem stepsText_nil : stepsText [] = [] := rfl

@[simp] theorem stepsText_member (name : String) (rest : List Step) :
    stepsText (.member name :: rest) = '.' :: (name.toList ++ stepsText rest) := rfl

@[simp] theorem stepsText_items (rest : List Step) :
    stepsText (.items :: rest) = '[' :: '*' :: ']' :: stepsText rest := rfl

theorem toList_text_step (path : Path) (step : Step) :
    (path.step step).text.toList = path.text.toList ++ step.text := by
  cases step with
  | member name => simp [Path.step, Path.member, Step.text]
  | items => simp [Path.step, Path.items, Step.text]

theorem toList_text_follow (path : Path) (steps : List Step) :
    (path.follow steps).text.toList = path.text.toList ++ stepsText steps := by
  induction steps generalizing path with
  | nil => simp [follow]
  | cons first rest ih =>
    have step : path.follow (first :: rest) = (path.step first).follow rest := rfl
    rw [step, ih, toList_text_step, List.append_assoc]
    rfl

theorem follow_eq_iff {path : Path} {steps others : List Step} :
    path.follow steps = path.follow others ↔ stepsText steps = stepsText others := by
  constructor
  · intro same
    have texts := congrArg (·.text.toList) same
    simpa only [toList_text_follow, List.append_cancel_left_eq] using texts
  · intro same
    have texts : (path.follow steps).text.toList = (path.follow others).text.toList := by
      rw [toList_text_follow, toList_text_follow, same]
    have := String.toList_inj.mp texts
    rwa [Path.mk.injEq]

theorem head_stepsText {steps : List Step} {c : Char} {rest : List Char}
    (h : stepsText steps = c :: rest) : c = '.' ∨ c = '[' := by
  cases steps with
  | nil => simp at h
  | cons first others =>
    cases first with
    | member name => exact Or.inl (List.cons.inj h).1.symm
    | items => exact Or.inr (List.cons.inj h).1.symm

/-! ## Plain names -/

/-- A name that is not taken for more than one step. -/
structure PlainName (name : String) : Prop where
  no_point : '.' ∉ name.toList
  no_items_end : ¬ ['[', '*', ']'] <:+ name.toList

theorem PlainName.of_no_bracket {name : String} (no_point : '.' ∉ name.toList)
    (no_bracket : '[' ∉ name.toList) : PlainName name where
  no_point := no_point
  no_items_end := fun ending => no_bracket (ending.subset (List.mem_cons_self ..))

/-- What a name without points can hold of a text of steps, if what is left is again one, are steps
to items. -/
theorem items_end_of_overlap {steps others : List Step} {taken : List Char} (some : taken ≠ [])
    (no_point : '.' ∉ taken) (h : stepsText steps = taken ++ stepsText others) :
    ['[', '*', ']'] <:+ taken := by
  induction steps generalizing taken with
  | nil => exact absurd (List.append_eq_nil_iff.mp h.symm).1 some
  | cons first rest ih =>
    obtain ⟨c, taken, rfl⟩ := List.exists_cons_of_ne_nil some
    cases first with
    | member name =>
      obtain rfl := (List.cons.inj h).1
      exact absurd (List.mem_cons_self ..) no_point
    | items =>
      -- A bracket was taken; what is left would not be a text of steps before all of it is.
      match taken with
      | [] =>
        have left : stepsText others = '*' :: ']' :: stepsText rest := (List.cons.inj h).2.symm
        rcases head_stepsText left with h | h <;> simp at h
      | [_] =>
        have left : stepsText others = ']' :: stepsText rest :=
          (List.cons.inj (List.cons.inj h).2).2.symm
        rcases head_stepsText left with h | h <;> simp at h
      | _ :: _ :: taken =>
        simp only [stepsText_items, List.cons_append, List.cons.injEq] at h
        obtain ⟨rfl, rfl, rfl, h⟩ := h
        by_cases last : taken = []
        · subst last
          exact List.suffix_rfl
        · have others_end := ih last (fun member => no_point (by simp [member])) h
          exact others_end.trans (List.suffix_append ['[', '*', ']'] taken)

theorem name_of_text {name other : String} (plain : PlainName name) (plain' : PlainName other)
    {steps others : List Step}
    (h : name.toList ++ stepsText steps = other.toList ++ stepsText others) :
    name = other ∧ stepsText steps = stepsText others := by
  have whole : ∀ {a b : String} {s s' : List Step} {taken : List Char}, PlainName b →
      b.toList = a.toList ++ taken → stepsText s = taken ++ stepsText s' → taken = [] := by
    intro a b s s' taken plain split text
    refine Decidable.byContradiction fun some => ?_
    have no_point : '.' ∉ taken := fun member => plain.no_point (by simp [split, member])
    have ending := items_end_of_overlap some no_point text
    exact plain.no_items_end (split ▸ ending.trans (List.suffix_append _ _))
  rcases List.append_eq_append_iff.mp h with ⟨taken, split, text⟩ | ⟨taken, split, text⟩
  · obtain rfl := whole plain' split text
    exact ⟨String.toList_inj.mp (by simpa using split.symm), by simpa using text⟩
  · obtain rfl := whole plain split text
    exact ⟨String.toList_inj.mp (by simpa using split), by simpa using text.symm⟩

/-- Steps with plain names are told by their text. -/
theorem steps_eq_of_text_eq {steps others : List Step}
    (plain : ∀ name, .member name ∈ steps → PlainName name)
    (plain' : ∀ name, .member name ∈ others → PlainName name)
    (h : stepsText steps = stepsText others) : steps = others := by
  induction steps generalizing others with
  | nil =>
    cases others with
    | nil => rfl
    | cons first _ => cases first <;> simp at h
  | cons first rest ih =>
    cases others with
    | nil => cases first <;> simp at h
    | cons first' rest' =>
      have plainRest : ∀ name, .member name ∈ rest → PlainName name :=
        fun name member => plain name (List.mem_cons_of_mem _ member)
      have plainRest' : ∀ name, .member name ∈ rest' → PlainName name :=
        fun name member => plain' name (List.mem_cons_of_mem _ member)
      cases first with
      | member name =>
        cases first' with
        | member other =>
          obtain ⟨rfl, others⟩ := name_of_text (plain name (List.mem_cons_self ..))
            (plain' other (List.mem_cons_self ..)) (List.cons.inj h).2
          rw [ih plainRest plainRest' others]
        | items => simp at h
      | items =>
        cases first' with
        | member other => simp at h
        | items =>
          simp only [stepsText_items, List.cons.injEq, true_and] at h
          rw [ih plainRest plainRest' h]

end ContractFixture.Path
