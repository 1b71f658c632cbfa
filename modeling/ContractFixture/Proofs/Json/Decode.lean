import ContractFixture.Json.Decode

/-! # What a record takes from an object -/

namespace ContractFixture.Json

variable {α : Type}

/-! ## Leaves -/

theorem count_toNat (n : UInt64) : count (int n.toNat) = .ok n := by
  have bound : n.toNat < 2 ^ 64 := n.toNat_lt
  have within : IntegerWidth.u64.contains (n.toNat : Int) = true :=
    IntegerWidth.contains_u64_iff.mpr (by omega)
  simp [count, int, within]

theorem optional_of_ok {decode : Json → Decoded α} {document : Json} {x : α}
    (h : decode document = .ok x) (present : document ≠ .null) :
    optional decode document = .ok (some x) := by
  cases document with
  | null => exact absurd rfl present
  | _ => simp [optional, h, Except.map]

/-! ## Fields -/

/-- A field that holds `field` holds `result` after the members. The only member that is meant for
it fills it, and none does if it is full. -/
inductive Fills (meant : String → Prop) (decode : Json → Decoded α) :
    Option α → List (String × Json) → Option α → Prop
  | done {field : Option α} : Fills meant decode field [] field
  | passed {field result : Option α} {m : String × Json} {rest : List (String × Json)}
      (elsewhere : ¬ meant m.1) (next : Fills meant decode field rest result) :
      Fills meant decode field (m :: rest) result
  | filled {result : Option α} {m : String × Json} {rest : List (String × Json)} {x : α}
      (here : meant m.1) (read : decode m.2 = .ok x)
      (next : Fills meant decode (some x) rest result) :
      Fills meant decode none (m :: rest) result

section

variable {meant : String → Prop} {decode : Json → Decoded α} {field result : Option α}
  {key : String} {value : Json} {rest : List (String × Json)}

theorem Fills.eq_of_nil (h : Fills meant decode field [] result) : result = field := by
  cases h
  rfl

theorem Fills.skip (h : Fills meant decode field ((key, value) :: rest) result)
    (elsewhere : ¬ meant key) : Fills meant decode field rest result := by
  cases h with
  | passed _ next => exact next
  | filled here => exact absurd here elsewhere

theorem Fills.take (h : Fills meant decode field ((key, value) :: rest) result)
    (here : meant key) (name : String) :
    ∃ x, fill name field (decode value) = .ok (some x) ∧
      Fills meant decode (some x) rest result := by
  cases h with
  | passed elsewhere => exact absurd here elsewhere
  | @filled _ _ _ x _ read next =>
    have done : fill name none (decode value) = .ok (some x) := by
      rw [fill, read]
      rfl
    exact ⟨x, done, next⟩

end

/-! ## Members in any order -/

/-- What the members say that are meant for one field, of which there is at most one. -/
inductive Tells (decode : Json → Decoded α) : List (String × Json) → Option α → Prop
  | nothing : Tells decode [] none
  | one {m : String × Json} {x : α} (read : decode m.2 = .ok x) : Tells decode [m] (some x)

theorem Tells.perm {decode : Json → Decoded α} {members others : List (String × Json)}
    {result : Option α} (h : Tells decode members result) (same : others.Perm members) :
    Tells decode others result := by
  cases h with
  | nothing =>
    rw [same.eq_nil]
    exact .nothing
  | one read =>
    rw [List.perm_singleton.mp same]
    exact .one read

theorem fills_of_none {meant : String → Prop} {decode : Json → Decoded α} {field : Option α}
    {members : List (String × Json)} (none : ∀ m ∈ members, ¬ meant m.1) :
    Fills meant decode field members field := by
  induction members with
  | nil => exact .done
  | cons m rest ih =>
    obtain ⟨first, others⟩ := List.forall_mem_cons.mp none
    exact .passed first (ih others)

theorem fills_of_tells {meant : String → Prop} [DecidablePred meant] {decode : Json → Decoded α}
    {members : List (String × Json)} {result : Option α}
    (h : Tells decode (members.filter fun m => meant m.1) result) :
    Fills meant decode none members result := by
  induction members with
  | nil =>
    cases h
    exact .done
  | cons m rest ih =>
    rw [List.filter_cons] at h
    split at h
    · rename_i here
      generalize others : rest.filter (fun m => decide (meant m.1)) = later at h
      cases h with
      | one read =>
        have none : ∀ m ∈ rest, ¬ meant m.1 := by simpa using others
        exact .filled (of_decide_eq_true here) read (fills_of_none none)
    · rename_i elsewhere
      exact .passed (by simpa using elsewhere) (ih h)

end ContractFixture.Json
