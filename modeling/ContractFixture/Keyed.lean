/-! # Entries in key order -/

namespace ContractFixture.Keyed

variable {α β : Type}

/-- Puts `value` at `key`: an entry that is there already is replaced, a new one goes to its
place. -/
def insert (key : String) (value : α) : List (String × α) → List (String × α)
  | [] => [(key, value)]
  | (k, v) :: rest =>
    if key < k then (key, value) :: (k, v) :: rest
    else if key = k then (key, value) :: rest
    else (k, v) :: insert key value rest

/-- Puts `value` at `key`, and gives the value that stood there before. -/
def exchange (key : String) (value : α) : List (String × α) → Option α × List (String × α)
  | [] => (none, [(key, value)])
  | (k, v) :: rest =>
    if key < k then (none, (key, value) :: (k, v) :: rest)
    else if key = k then (some v, (key, value) :: rest)
    else
      let (previous, rest) := exchange key value rest
      (previous, (k, v) :: rest)

/-- The entries in key order; of several with one key the last stays. -/
def ofList (entries : List (String × α)) : List (String × α) :=
  entries.foldl (fun sofar entry => insert entry.1 entry.2 sofar) []

def get? (key : String) : List (String × α) → Option α
  | [] => none
  | (k, v) :: rest => if key = k then some v else get? key rest

/-- The keys stand in strictly increasing order, so each stands there once. -/
def Sorted (entries : List (String × α)) : Prop :=
  entries.Pairwise fun a b => a.1 < b.1

instance (entries : List (String × α)) : Decidable (Sorted entries) :=
  inferInstanceAs (Decidable (entries.Pairwise fun a b => a.1 < b.1))

theorem sorted_nil : Sorted ([] : List (String × α)) := List.Pairwise.nil

theorem mem_insert {key : String} {value : α} {entry : String × α} {entries : List (String × α)}
    (h : entry ∈ insert key value entries) : entry = (key, value) ∨ entry ∈ entries := by
  induction entries with
  | nil => exact Or.inl (by simpa [insert] using h)
  | cons first rest ih =>
    simp only [insert] at h
    split at h
    · simpa using h
    · split at h
      · exact (List.mem_cons.mp h).imp id (List.mem_cons_of_mem _)
      · rcases List.mem_cons.mp h with rfl | h
        · exact Or.inr (List.mem_cons_self ..)
        · exact (ih h).imp id (List.mem_cons_of_mem _)

theorem Sorted.insert {entries : List (String × α)} (h : Sorted entries) (key : String)
    (value : α) :
    Sorted (insert key value entries) := by
  induction entries with
  | nil => exact List.pairwise_singleton _ _
  | cons first rest ih =>
    have tail := List.pairwise_cons.mp h
    simp only [Keyed.insert]
    split
    · rename_i before
      exact List.pairwise_cons.mpr ⟨fun entry member => by
        rcases List.mem_cons.mp member with rfl | member
        · exact before
        · exact String.lt_trans before (tail.1 entry member), h⟩
    · split
      · rename_i same
        exact List.pairwise_cons.mpr ⟨fun entry member => by
          simpa [same] using tail.1 entry member, tail.2⟩
      · rename_i notBefore notSame
        refine List.pairwise_cons.mpr ⟨fun entry member => ?_, ih tail.2⟩
        rcases mem_insert member with rfl | member
        · have le := String.not_lt.mp notBefore
          exact Decidable.byContradiction fun no =>
            notSame (String.le_antisymm (String.not_lt.mp no) le)
        · exact tail.1 entry member

theorem sorted_ofList (entries : List (String × α)) : Sorted (ofList entries) := by
  suffices ∀ sofar, Sorted sofar →
      Sorted (entries.foldl (fun sofar entry => insert entry.1 entry.2 sofar) sofar) from
    this [] sorted_nil
  induction entries with
  | nil => exact fun _ h => h
  | cons entry rest ih => exact fun sofar h => ih _ (h.insert _ _)

@[simp] theorem get?_insert_self (key : String) (value : α) (entries : List (String × α)) :
    get? key (insert key value entries) = some value := by
  induction entries with
  | nil => simp [insert, get?]
  | cons first rest ih =>
    simp only [insert]
    split
    · simp [get?]
    · split
      · simp [get?]
      · rename_i notSame
        simp [get?, notSame, ih]

theorem get?_insert_of_ne {key other : String} (h : other ≠ key) (value : α)
    (entries : List (String × α)) : get? other (insert key value entries) = get? other entries := by
  induction entries with
  | nil => simp [insert, get?, h]
  | cons first rest ih =>
    simp only [insert]
    split
    · simp [get?, h]
    · split
      · rename_i same
        subst same
        simp [get?, h]
      · simp [get?, ih]

theorem get?_eq_none_of_lt {key : String} {entries : List (String × α)}
    (before : ∀ e ∈ entries, key < e.1) : get? key entries = none := by
  induction entries with
  | nil => rfl
  | cons first rest ih =>
    obtain ⟨less, others⟩ := List.forall_mem_cons.mp before
    have other : key ≠ first.1 := fun same => String.lt_irrefl key (by rwa [← same] at less)
    rw [get?, if_neg other]
    exact ih others

theorem exchange_snd (key : String) (value : α) (entries : List (String × α)) :
    (exchange key value entries).2 = insert key value entries := by
  induction entries with
  | nil => rfl
  | cons first rest ih =>
    simp only [exchange, insert]
    split
    · rfl
    · split
      · rfl
      · rw [← ih]

theorem exchange_fst {entries : List (String × α)} (h : Sorted entries) (key : String) (value : α) :
    (exchange key value entries).1 = get? key entries := by
  induction entries with
  | nil => rfl
  | cons first rest ih =>
    have tail := List.pairwise_cons.mp h
    simp only [exchange, get?]
    split
    · rename_i less
      have other : key ≠ first.1 := fun same => String.lt_irrefl key (by rwa [← same] at less)
      have behind := get?_eq_none_of_lt fun e member => String.lt_trans less (tail.1 e member)
      rw [if_neg other, behind]
    · split
      · rfl
      · exact ih tail.2

end ContractFixture.Keyed
