import ContractFixture.Keyed
import Mathlib.Data.List.Perm.Subperm

/-! # Look-up in entries in key order -/

namespace ContractFixture.Keyed

variable {α : Type}

/-! ## Look-up -/

theorem get?_insert (key other : String) (value : α) (entries : List (String × α)) :
    get? other (insert key value entries) =
      if other = key then some value else get? other entries := by
  split
  · subst other
    exact get?_insert_self key value entries
  · rename_i h
    exact get?_insert_of_ne h value entries

theorem mem_of_get? {key : String} {value : α} {entries : List (String × α)}
    (h : get? key entries = some value) : (key, value) ∈ entries := by
  induction entries with
  | nil => simp [get?] at h
  | cons e rest ih =>
    rw [get?] at h
    split at h
    · rename_i same
      obtain rfl := Option.some.inj h
      exact same ▸ List.mem_cons_self ..
    · exact List.mem_cons_of_mem _ (ih h)

theorem isSome_get?_iff {key : String} {entries : List (String × α)} :
    (get? key entries).isSome ↔ key ∈ entries.map (·.1) := by
  induction entries with
  | nil => simp [get?]
  | cons e rest ih =>
    rw [get?]
    split
    · simp [*]
    · simp [*]

theorem nodup_keys_of_sorted {entries : List (String × α)} (h : Sorted entries) :
    (entries.map (·.1)).Nodup := by
  rw [List.Nodup, List.pairwise_map]
  refine h.imp fun less same => ?_
  rw [same] at less
  exact String.lt_irrefl _ less

theorem nodup_of_keys {entries : List (String × α)} (h : (entries.map (·.1)).Nodup) :
    entries.Nodup :=
  List.Pairwise.of_map (·.1) (fun _ _ differ same => differ (congrArg _ same)) h

theorem mem_iff_get? {entries : List (String × α)} (h : (entries.map (·.1)).Nodup)
    {e : String × α} : e ∈ entries ↔ get? e.1 entries = some e.2 := by
  constructor
  · intro member
    induction entries with
    | nil => simp at member
    | cons first rest ih =>
      obtain ⟨new, different⟩ := List.nodup_cons.mp h
      rw [get?]
      rcases List.mem_cons.mp member with rfl | member
      · rw [if_pos rfl]
      · have other : e.1 ≠ first.1 := by
          intro same
          exact new (List.mem_map.mpr ⟨e, member, same⟩)
        rw [if_neg other]
        exact ih different member
  · exact mem_of_get?

theorem get?_of_mem {entries : List (String × α)} (h : Sorted entries) {e : String × α}
    (member : e ∈ entries) : get? e.1 entries = some e.2 :=
  (mem_iff_get? (nodup_keys_of_sorted h)).mp member

theorem get?_map {β : Type} (f : α → β) (key : String) (entries : List (String × α)) :
    get? key (entries.map fun e => (e.1, f e.2)) = (get? key entries).map f := by
  induction entries with
  | nil => rfl
  | cons e rest ih =>
    rw [List.map_cons, get?, get?]
    split
    · rfl
    · exact ih

theorem Sorted.map {β : Type} {entries : List (String × α)} (h : Sorted entries) (f : α → β) :
    Sorted (entries.map fun e => (e.1, f e.2)) :=
  List.pairwise_map.mpr h

/-! ## Many insertions -/

def insertAll (news : List (String × α)) (entries : List (String × α)) : List (String × α) :=
  news.foldl (fun sofar e => insert e.1 e.2 sofar) entries

theorem ofList_eq (entries : List (String × α)) : ofList entries = insertAll entries [] := rfl

theorem get?_insertAll (key : String) (news entries : List (String × α)) :
    get? key (insertAll news entries) =
      ((news.filter (·.1 = key)).getLast?.map (·.2)).or (get? key entries) := by
  induction news generalizing entries with
  | nil => rfl
  | cons e rest ih =>
    have step : insertAll (e :: rest) entries = insertAll rest (insert e.1 e.2 entries) := rfl
    rw [step, ih, get?_insert, List.filter_cons]
    by_cases same : e.1 = key
    · cases found : (rest.filter (·.1 = key)).getLast? <;>
        simp [same, found, List.getLast?_cons]
    · simp [same, Ne.symm same]

theorem get?_ofList (key : String) (entries : List (String × α)) :
    get? key (ofList entries) = (entries.filter (·.1 = key)).getLast?.map (·.2) := by
  rw [ofList_eq, get?_insertAll]
  simp [get?]

theorem mem_keys_ofList {key : String} {entries : List (String × α)} :
    key ∈ (ofList entries).map (·.1) ↔ key ∈ entries.map (·.1) := by
  rw [← isSome_get?_iff, get?_ofList, Option.isSome_map, List.getLast?_isSome]
  simp [List.filter_eq_nil_iff]

/-! ## The entries that stay -/

/-- The entries of a list that no later entry replaces, in the order of the list. -/
def lasts : List (String × α) → List (String × α)
  | [] => []
  | e :: rest => if e.1 ∈ rest.map (·.1) then lasts rest else e :: lasts rest

theorem lasts_sublist (entries : List (String × α)) : (lasts entries).Sublist entries := by
  induction entries with
  | nil => exact .slnil
  | cons e rest ih =>
    unfold lasts
    split
    · exact ih.cons e
    · exact ih.cons_cons e

theorem nodup_keys_lasts (entries : List (String × α)) :
    ((lasts entries).map (·.1)).Nodup := by
  induction entries with
  | nil => exact List.nodup_nil
  | cons e rest ih =>
    unfold lasts
    split
    · exact ih
    · rename_i new
      refine List.nodup_cons.mpr ⟨fun member => new ?_, ih⟩
      exact ((lasts_sublist rest).map _).subset member

theorem lasts_of_nodup {entries : List (String × α)} (h : (entries.map (·.1)).Nodup) :
    lasts entries = entries := by
  induction entries with
  | nil => rfl
  | cons e rest ih =>
    obtain ⟨new, different⟩ := List.nodup_cons.mp h
    rw [lasts, if_neg new, ih different]

theorem get?_lasts (key : String) (entries : List (String × α)) :
    get? key (lasts entries) = get? key (ofList entries) := by
  rw [get?_ofList]
  induction entries with
  | nil => rfl
  | cons e rest ih =>
    rw [lasts, List.filter_cons]
    by_cases here : e.1 = key
    · rw [if_pos (decide_eq_true here)]
      split
      · -- A later entry has the key, so the last one is among the later ones.
        rename_i replaced
        rw [ih]
        have found : ((rest.filter (·.1 = key)).getLast?).isSome := by
          rw [← Option.isSome_map, ← get?_ofList, isSome_get?_iff, mem_keys_ofList, ← here]
          exact replaced
        obtain ⟨last, found⟩ := Option.isSome_iff_exists.mp found
        rw [List.getLast?_cons, found]
        rfl
      · rename_i stays
        have none : rest.filter (·.1 = key) = [] := by
          rw [List.filter_eq_nil_iff]
          intro other member same
          exact stays (List.mem_map.mpr ⟨other, member, (of_decide_eq_true same).trans here.symm⟩)
        rw [none, get?, if_pos here.symm]
        rfl
    · have other : ¬ decide (e.1 = key) = true := by simpa using here
      rw [if_neg other, ← ih]
      split
      · rfl
      · rw [get?, if_neg (Ne.symm here)]

theorem perm_lasts_ofList (entries : List (String × α)) :
    (ofList entries).Perm (lasts entries) := by
  have once := nodup_keys_of_sorted (sorted_ofList entries)
  have once' := nodup_keys_lasts entries
  rw [List.perm_ext_iff_of_nodup (nodup_of_keys once) (nodup_of_keys once')]
  intro e
  rw [mem_iff_get? once, mem_iff_get? once', get?_lasts]

theorem length_flatMap_lasts {β : Type} {pieces : String × α → List β}
    (nonempty : ∀ e, pieces e ≠ []) (entries : List (String × α)) :
    ((lasts entries).flatMap pieces).length ≤ (entries.flatMap pieces).length ∧
      (((lasts entries).flatMap pieces).length = (entries.flatMap pieces).length ↔
        (entries.map (·.1)).Nodup) := by
  induction entries with
  | nil => simp [lasts]
  | cons e rest ih =>
    obtain ⟨le, same⟩ := ih
    have here := List.length_pos_of_ne_nil (nonempty e)
    rw [List.flatMap_cons, List.length_append, List.map_cons, List.nodup_cons, ← same, lasts]
    split
    · rename_i replaced
      simp only [replaced, not_true, false_and, iff_false]
      omega
    · rename_i stays
      simp only [stays, not_false_eq_true, true_and, List.flatMap_cons, List.length_append]
      omega

theorem length_flatMap_ofList {β : Type} {pieces : String × α → List β}
    (nonempty : ∀ e, pieces e ≠ []) (entries : List (String × α)) :
    ((ofList entries).flatMap pieces).length ≤ (entries.flatMap pieces).length ∧
      (((ofList entries).flatMap pieces).length = (entries.flatMap pieces).length ↔
        (entries.map (·.1)).Nodup) := by
  rw [((perm_lasts_ofList entries).flatMap_right pieces).length_eq]
  exact length_flatMap_lasts nonempty entries

theorem length_ofList_iff {entries : List (String × α)} :
    (ofList entries).length = entries.length ↔ (entries.map (·.1)).Nodup := by
  simpa using (length_flatMap_ofList (fun e => List.cons_ne_nil e []) entries).2

theorem mem_of_mem_ofList {entries : List (String × α)} {e : String × α}
    (h : e ∈ ofList entries) : e ∈ entries :=
  (lasts_sublist entries).subset ((perm_lasts_ofList entries).mem_iff.mp h)

/-! ## The one list of the last values -/

/-- In key order, the last value that was given to each key. -/
structure LastWins (given entries : List (String × α)) : Prop where
  sorted : Sorted entries
  last : ∀ key, get? key entries = (given.filter (·.1 = key)).getLast?.map (·.2)

theorem Sorted.eq_of_perm {entries others : List (String × α)} (h : Sorted entries)
    (h' : Sorted others) (perm : entries.Perm others) : entries = others := by
  refine perm.eq_of_pairwise (fun a b _ _ before after => ?_) h h'
  exact absurd (String.lt_trans before after) (String.lt_irrefl _)

theorem Sorted.eq_of_get? {entries others : List (String × α)} (h : Sorted entries)
    (h' : Sorted others) (same : ∀ key, get? key entries = get? key others) : entries = others := by
  have once := nodup_keys_of_sorted h
  have once' := nodup_keys_of_sorted h'
  apply h.eq_of_perm h'
  rw [List.perm_ext_iff_of_nodup (nodup_of_keys once) (nodup_of_keys once')]
  intro e
  rw [mem_iff_get? once, mem_iff_get? once', same]

theorem lastWins_iff {given entries : List (String × α)} :
    LastWins given entries ↔ entries = ofList given := by
  constructor
  · intro h
    apply h.sorted.eq_of_get? (sorted_ofList given)
    intro key
    rw [h.last, get?_ofList]
  · rintro rfl
    exact ⟨sorted_ofList given, fun key => get?_ofList key given⟩

theorem ofList_of_perm {entries given : List (String × α)} (h : Sorted entries)
    (perm : given.Perm entries) : ofList given = entries := by
  have once : (given.map (·.1)).Nodup :=
    (perm.map (·.1)).nodup_iff.mpr (nodup_keys_of_sorted h)
  have kept := perm_lasts_ofList given
  rw [lasts_of_nodup once] at kept
  exact (sorted_ofList given).eq_of_perm h (kept.trans perm)

theorem ofList_of_sorted {entries : List (String × α)} (h : Sorted entries) :
    ofList entries = entries :=
  ofList_of_perm h (List.Perm.refl _)

/-! ## One entry among others -/

theorem ofList_append_cons (before after : List (String × α)) (e : String × α) :
    ofList (before ++ e :: after) =
      if e.1 ∈ after.map (·.1) then ofList (before ++ after)
      else insert e.1 e.2 (ofList (before ++ after)) := by
  have none_of_not_mem : e.1 ∉ after.map (·.1) → after.filter (·.1 = e.1) = [] := by
    intro new
    rw [List.filter_eq_nil_iff]
    intro other member same
    exact new (List.mem_map.mpr ⟨other, member, of_decide_eq_true same⟩)
  split
  · rename_i replaced
    apply (sorted_ofList _).eq_of_get? (sorted_ofList _)
    intro key
    have found : key = e.1 → ((after.filter (·.1 = key)).getLast?).isSome := by
      rintro rfl
      rwa [← Option.isSome_map, ← get?_ofList, isSome_get?_iff, mem_keys_ofList]
    rw [get?_ofList, get?_ofList, List.filter_append, List.filter_append, List.filter_cons]
    split
    · rename_i here
      obtain ⟨last, found⟩ := Option.isSome_iff_exists.mp (found (of_decide_eq_true here).symm)
      simp [List.getLast?_append, List.getLast?_cons, found]
    · rfl
  · rename_i stays
    apply (sorted_ofList _).eq_of_get? ((sorted_ofList _).insert e.1 e.2)
    intro key
    rw [get?_insert, get?_ofList, get?_ofList, List.filter_append, List.filter_append,
      List.filter_cons]
    by_cases here : key = e.1
    · subst key
      simp [none_of_not_mem stays]
    · simp [here, Ne.symm here]

theorem exists_insert_eq (key : String) (entries : List (String × α)) :
    ∃ before after, ∀ value, insert key value entries = before ++ (key, value) :: after := by
  induction entries with
  | nil => exact ⟨[], [], fun _ => rfl⟩
  | cons e rest ih =>
    by_cases less : key < e.1
    · exact ⟨[], e :: rest, fun value => by rw [insert, if_pos less]; rfl⟩
    · by_cases same : key = e.1
      · exact ⟨[], rest, fun value => by rw [insert, if_neg less, if_pos same]; rfl⟩
      · obtain ⟨before, after, inserted⟩ := ih
        refine ⟨e :: before, after, fun value => ?_⟩
        rw [insert, if_neg less, if_neg same, inserted]
        rfl

/-! ## Keys behind one text -/

def under (front : String) (entries : List (String × α)) : List (String × α) :=
  entries.map fun e => (front ++ e.1, e.2)

theorem append_lt_append_iff (front : String) {key other : String} :
    front ++ key < front ++ other ↔ key < other := by
  rw [String.lt_iff, String.lt_iff, String.toList_append, String.toList_append]
  induction front.toList with
  | nil => exact Iff.rfl
  | cons c cs ih => exact List.cons_lt_cons_self.trans ih

theorem append_eq_append_iff (front : String) {key other : String} :
    front ++ key = front ++ other ↔ key = other := by
  rw [← String.toList_inj, ← String.toList_inj, String.toList_append, String.toList_append,
    List.append_cancel_left_eq]

theorem insert_under (front key : String) (value : α) (entries : List (String × α)) :
    insert (front ++ key) value (under front entries) = under front (insert key value entries) := by
  induction entries with
  | nil => rfl
  | cons e rest ih =>
    simp only [under, List.map_cons, insert, append_lt_append_iff, append_eq_append_iff] at ih ⊢
    split
    · rfl
    · split
      · rfl
      · rw [ih, List.map_cons]

theorem insertAll_under (front : String) (news entries : List (String × α)) :
    insertAll (under front news) (under front entries) = under front (insertAll news entries) := by
  induction news generalizing entries with
  | nil => rfl
  | cons e rest ih =>
    have first := insert_under front e.1 e.2 entries
    have others := ih (insert e.1 e.2 entries)
    rw [← first] at others
    exact others

theorem ofList_under (front : String) (entries : List (String × α)) :
    ofList (under front entries) = under front (ofList entries) :=
  insertAll_under front entries []

end ContractFixture.Keyed
