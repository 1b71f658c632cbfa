import ContractFixture.Proofs.Template.Keys

/-! # Templates in which matchers share no place -/

namespace ContractFixture.Template

/-- A well-formed template without lists of its own, in which no `like` wraps a matcher directly. -/
structure Unshared (t : Template) : Prop where
  wellFormed : t.WellFormed
  no_list : ∀ place ∈ t.places, ∀ items, place.node ≠ .list items
  no_liked_matcher : ∀ place ∈ t.places, ∀ contents, place.node = .like contents →
    contents.isMatcher = false

theorem here_mem_places (t : Template) : .here t ∈ t.places := mem_places.mpr (Or.inl rfl)

theorem Unshared.of_mem_children {t : Template} (h : t.Unshared) {c : List Path.Step × Template}
    (isChild : c ∈ t.children) : c.2.Unshared := by
  have below : ∀ place ∈ places c.2, place.under t c.1 ∈ t.places :=
    fun place placed => mem_places.mpr (Or.inr ⟨c, isChild, place, placed, rfl⟩)
  constructor
  · exact h.wellFormed.of_mem_children isChild
  · intro place placed
    exact h.no_list (place.under t c.1) (below place placed)
  · intro place placed
    exact h.no_liked_matcher (place.under t c.1) (below place placed)

theorem Unshared.of_children {t : Template} (wellFormed : t.WellFormed)
    (no_list : ∀ items, t ≠ .list items)
    (no_liked_matcher : ∀ contents, t = .like contents → contents.isMatcher = false)
    (below : ∀ c ∈ t.children, c.2.Unshared) : t.Unshared := by
  constructor
  · exact wellFormed
  · intro place placed
    rcases mem_places.mp placed with rfl | ⟨c, isChild, lower, inside, rfl⟩
    · exact no_list
    · exact (below c isChild).no_list lower inside
  · intro place placed
    rcases mem_places.mp placed with rfl | ⟨c, isChild, lower, inside, rfl⟩
    · exact no_liked_matcher
    · exact (below c isChild).no_liked_matcher lower inside

theorem unshared_literal {value : Json} (canonical : value.IsCanonical) :
    (literal value).Unshared :=
  .of_children canonical (by simp) (by simp) (by simp [children])

theorem unshared_pattern (sample form : String) : (pattern sample form).Unshared :=
  .of_children trivial (by simp) (by simp) (by simp [children])

theorem unshared_rawText (text : String) : (rawText text).Unshared :=
  .of_children trivial (by simp) (by simp) (by simp [children])

theorem unshared_like {contents : Template} (no_matcher : contents.isMatcher = false)
    (h : contents.Unshared) : (like contents).Unshared := by
  refine .of_children h.wellFormed (by simp) ?_ fun c isChild => ?_
  · rintro _ ⟨⟩
    exact no_matcher
  · obtain rfl := List.mem_singleton.mp isChild
    exact h

theorem unshared_map {entries : List (String × Template)} (sorted : Keyed.Sorted entries)
    (below : ∀ e ∈ entries, e.2.Unshared) : (map entries).Unshared := by
  have wellFormed : WellFormedEntries entries :=
    wellFormedEntries_iff.mpr fun e member => (below e member).wellFormed
  refine .of_children ⟨sorted, wellFormed⟩ (by simp) (by simp) fun c isChild => ?_
  obtain ⟨e, member, rfl⟩ := List.mem_map.mp isChild
  exact below e member

theorem unshared_object {fields : List (String × Template)} (h : (map fields).Unshared) :
    (object fields).Unshared :=
  .of_children h.wellFormed (by simp) (by simp) fun _ isChild => h.of_mem_children isChild

theorem unshared_member (key text : String) : (map [(key, .rawText text)]).Unshared := by
  apply unshared_map
  · exact List.pairwise_singleton _ _
  · simpa using unshared_rawText text

theorem unshared_each {contents : Template} (h : contents.Unshared) (min max : UInt64) :
    (each contents min max).Unshared := by
  refine .of_children h.wellFormed (by simp) (by simp) fun c isChild => ?_
  obtain rfl := List.mem_singleton.mp isChild
  exact h

/-! ## The steps of a child -/

theorem eq_like_of_no_steps {t : Template} {c : List Path.Step × Template}
    (isChild : c ∈ t.children) (none : c.1 = []) : t = .like c.2 := by
  cases isChild using child_cases with
  | like contents => rfl
  | map _ _ _ | list _ _ _ | each _ _ _ | object _ _ _ => simp at none

theorem steps_ne_nil_of_not_matcher {t : Template} (h : t.isMatcher = false) {visit : Visit}
    (member : visit ∈ t.visits) : visit.steps ≠ [] := by
  rcases mem_visits.mp member with here | ⟨c, isChild, below, _, rfl⟩
  · have matcher := Place.visit?_eq_some_iff.mp here
    have node : t = visit.matcher.toTemplate := congrArg Place.node matcher
    rw [node, isMatcher, Matcher.matcher?_toTemplate] at h
    simp at h
  · intro none
    have like := eq_like_of_no_steps isChild (List.append_eq_nil_iff.mp none).1
    rw [like] at h
    simp [isMatcher, matcher?] at h

theorem Unshared.steps_ne_nil {t : Template} (h : t.Unshared) {c : List Path.Step × Template}
    (isChild : c ∈ t.children) {visit : Visit} (member : visit ∈ visits c.2) :
    c.1 ++ visit.steps ≠ [] := by
  intro none
  obtain ⟨here, below⟩ := List.append_eq_nil_iff.mp none
  have like := eq_like_of_no_steps isChild here
  have noMatcher := h.no_liked_matcher _ t.here_mem_places c.2 like
  exact steps_ne_nil_of_not_matcher noMatcher member below

theorem entries_apart {entries : List (String × Template)} (sorted : Keyed.Sorted entries) :
    (entries.map fun e => ([Path.Step.member e.1], e.2)).Pairwise
      fun a b => ∀ s s', a.1 ++ s ≠ b.1 ++ s' := by
  rw [List.pairwise_map]
  refine sorted.imp fun less s s' same => ?_
  have keys := Path.Step.member.inj (List.cons.inj same).1
  rw [keys] at less
  exact String.lt_irrefl _ less

theorem Unshared.children_apart {t : Template} (h : t.Unshared) :
    t.children.Pairwise fun a b => ∀ s s', a.1 ++ s ≠ b.1 ++ s' := by
  cases t with
  | literal _ | pattern _ _ | rawText _ => exact List.Pairwise.nil
  | map entries | object entries => exact entries_apart h.wellFormed.1
  | list items => exact absurd rfl (h.no_list _ (here_mem_places _) items)
  | like contents | each contents min max => exact List.pairwise_singleton _ _

/-! ## The steps of a visit -/

theorem Unshared.steps_differ {t : Template} (h : t.Unshared) :
    t.visits.Pairwise fun v w => v.steps ≠ w.steps := by
  induction t using children_induction with
  | node t ih =>
    -- A visit of the node itself has no steps, and those below different children part at once.
    rw [visits_eq, List.pairwise_append, List.pairwise_flatMap]
    refine ⟨?here, ⟨?each, ?apart⟩, ?below⟩
    case here =>
      cases (Place.here t).visit? <;> simp
    case each =>
      intro c isChild
      rw [List.pairwise_map]
      refine (ih c isChild (h.of_mem_children isChild)).imp fun differ same => ?_
      exact differ (List.append_cancel_left same)
    case apart =>
      refine h.children_apart.imp fun apart v isFirst w isSecond => ?_
      obtain ⟨v, -, rfl⟩ := List.mem_map.mp isFirst
      obtain ⟨w, -, rfl⟩ := List.mem_map.mp isSecond
      exact apart v.steps w.steps
    case below =>
      intro v isHere w isBelow same
      obtain ⟨c, isChild, isBelow⟩ := List.mem_flatMap.mp isBelow
      obtain ⟨w, member, rfl⟩ := List.mem_map.mp isBelow
      have matcher := Place.visit?_eq_some_iff.mp (Option.mem_toList.mp isHere)
      have noSteps : v.steps = [] := (congrArg Place.steps matcher).symm
      exact h.steps_ne_nil isChild member (same.symm.trans noSteps)

end ContractFixture.Template
