import ContractFixture.Hint.Basic
import ContractFixture.Proofs.Hint.Pairs

/-! # What a hint can hold -/

namespace ContractFixture.Hint

open Text (isAllBlank)

inductive Target.Takes : Target → Sample → Prop
  | boolean (value : Bool) : Takes .boolean (.boolean value)
  | integer {width : IntegerWidth} {value : Int} (low : width.low ≤ value)
      (high : value ≤ width.high) : Takes (.integer width) (.integer value)
  | float {width : FloatWidth} {value : Float} (finite : value.isFinite = true)
      (within : width.contains value = true) : Takes (.float width) (.float value)
  | string (text : String) : Takes .string (.string text)

/-! ## Literals -/

theorem booleanSample_takes {value : List Char} {sample : Sample}
    (h : booleanSample value = .ok sample) : Target.boolean.Takes sample := by
  unfold booleanSample invalid at h
  split at h
  · cases h
    exact .boolean true
  · split at h
    · cases h
      exact .boolean false
    · cases h

theorem isWide_iff {n : Int} :
    isWide n = true ↔ -(Nat.pow 2 127 : Nat) ≤ n ∧ n < (Nat.pow 2 127 : Nat) := by
  simp [isWide]

theorem isWide_of_contains {width : IntegerWidth} {n : Int} (h : width.contains n = true) :
    isWide n = true := by
  have word := IntegerWidth.word_of_contains h
  rw [IntegerWidth.contains_i64_iff, IntegerWidth.contains_u64_iff] at word
  simp [isWide]
  omega

theorem wordSample?_of_contains {width : IntegerWidth} {n : Int} (h : width.contains n = true) :
    wordSample? n = some (.integer n) := by
  rw [wordSample?, if_pos (by simpa using IntegerWidth.word_of_contains h)]

theorem integerSample_of_literal {width : IntegerWidth} {value : List Char} {n : Int}
    (literal : Decimal.integer? (Text.trim value) = some n) :
    integerSample width value =
      if isWide n = false then invalid "integer" value
      else if width.contains n = true then .ok (.integer n)
      else .error (.outOfRange n width) := by
  unfold integerSample
  rw [literal]
  cases within : width.contains n with
  | true => simp [wordSample?_of_contains within, within]
  | false => simp [within]

theorem integerSample_eq_ok_iff {width : IntegerWidth} {value : List Char} {sample : Sample} :
    integerSample width value = .ok sample ↔
      ∃ n, Decimal.integer? (Text.trim value) = some n ∧ width.contains n = true ∧
        sample = .integer n := by
  cases literal : Decimal.integer? (Text.trim value) with
  | none => simp [integerSample, literal, invalid]
  | some n =>
    rw [integerSample_of_literal literal]
    cases within : width.contains n with
    | true =>
      rw [if_neg (by simp [isWide_of_contains within])]
      simp [within, eq_comm (a := sample)]
    | false => cases isWide n <;> simp [invalid, within]

theorem integerSample_takes {width : IntegerWidth} {value : List Char} {sample : Sample}
    (h : integerSample width value = .ok sample) : (Target.integer width).Takes sample := by
  obtain ⟨n, -, within, rfl⟩ := integerSample_eq_ok_iff.mp h
  obtain ⟨low, high⟩ := IntegerWidth.contains_iff.mp within
  exact .integer low high

theorem floatSample_takes {width : FloatWidth} {value : List Char} {sample : Sample}
    (h : floatSample width value = .ok sample) : (Target.float width).Takes sample := by
  unfold floatSample invalid at h
  split at h
  · cases h
  · split at h
    · cases h
    · rename_i finite
      split at h
      · rename_i within
        cases h
        exact .float (by simpa using finite) within
      · cases h

theorem readSample_takes {target : Target} {value : List Char} {sample : Sample}
    (h : readSample target value = .ok sample) : target.Takes sample := by
  cases target with
  | boolean => exact booleanSample_takes h
  | integer width => exact integerSample_takes h
  | float width => exact floatSample_takes h
  | string =>
    cases h
    exact .string _
  | sequence | structured => cases h

/-! ## Pairs -/

theorem Key.ofName?_eq_some_iff {name : String} {key : Key} :
    Key.ofName? name = some key ↔ name = key.name := by
  constructor
  · intro h
    unfold ofName? at h
    have same := List.find?_some h
    exact (beq_iff_eq.mp same).symm
  · rintro rfl
    cases key <;> rfl

theorem Key.ofName?_ofList_eq_some_iff {name : List Char} {key : Key} :
    Key.ofName? (String.ofList name) = some key ↔ name = key.name.toList := by
  rw [Key.ofName?_eq_some_iff, ← String.toList_inj, String.toList_ofList]

theorem add_eq_ok_iff {target : Target} {hint hint' : Hint} {pair : Pair} :
    add target hint pair = .ok hint' ↔
      ∃ key, Key.ofName? (String.ofList pair.key) = some key ∧ target.accepts key = true ∧
        hint.has key = false ∧ isAllBlank pair.value = false ∧
        hint.set target key pair.value = .ok hint' := by
  unfold add
  cases named : Key.ofName? (String.ofList pair.key) with
  | none => simp [named]
  | some key =>
    cases accepted : target.accepts key <;> cases given : hint.has key <;>
      cases blank : isAllBlank pair.value <;> simp [named, accepted, given]

theorem set_sample_eq_ok_iff {target : Target} {hint hint' : Hint} {value : List Char} :
    hint.set target .sample value = .ok hint' ↔
      ∃ sample, readSample target value = .ok sample ∧
        hint' = { hint with sample := some sample } := by
  simp only [set]
  cases readSample target value with
  | error e => simp [Functor.map, Except.map]
  | ok sample => simp [Functor.map, Except.map, eq_comm (a := hint')]

theorem set_pattern_eq_ok_iff {target : Target} {hint hint' : Hint} {value : List Char} :
    hint.set target .pattern value = .ok hint' ↔
      hint.sample.isSome ∧ hint' = { hint with pattern := some (String.ofList value) } := by
  simp only [set]
  cases hint.sample with
  | none => simp
  | some sample => simp [eq_comm]

theorem set_min_eq_ok_iff {target : Target} {hint hint' : Hint} {value : List Char} :
    hint.set target .min value = .ok hint' ↔
      ∃ bound, readMin value = .ok bound ∧ hint' = { hint with min := some bound } := by
  simp only [set]
  cases readMin value with
  | error e => simp [Functor.map, Except.map]
  | ok bound => simp [Functor.map, Except.map, eq_comm (a := hint')]

theorem has_of_set {target : Target} {key : Key} {hint hint' : Hint} {value : List Char}
    (h : hint.set target key value = .ok hint') : hint'.has key = true := by
  cases key with
  | sample =>
    obtain ⟨sample, -, rfl⟩ := set_sample_eq_ok_iff.mp h
    rfl
  | pattern =>
    obtain ⟨-, rfl⟩ := set_pattern_eq_ok_iff.mp h
    rfl
  | min =>
    obtain ⟨bound, -, rfl⟩ := set_min_eq_ok_iff.mp h
    rfl

theorem foldlM_cons_eq_ok_iff {target : Target} {pair : Pair} {rest : List Pair}
    {hint hint' : Hint} :
    (pair :: rest).foldlM (add target) hint = .ok hint' ↔
      ∃ next, add target hint pair = .ok next ∧ rest.foldlM (add target) next = .ok hint' := by
  rw [List.foldlM_cons]
  cases add target hint pair with
  | error e =>
    constructor
    · intro h
      cases h
    · rintro ⟨next, h, -⟩
      cases h
  | ok next =>
    constructor
    · exact fun h => ⟨next, rfl, h⟩
    · rintro ⟨next, ⟨⟩, h⟩
      exact h

/-! ## Texts -/

theorem parse_eq_ok_iff {target : Target} {text : List Char} {hint : Hint}
    (said : isAllBlank text = false) (annotatable : target ≠ .structured) :
    parse target text = .ok hint ↔
      ∃ found, pairs text = .ok found ∧ found.foldlM (add target) {} = .ok hint := by
  unfold parse
  rw [if_neg (by simp [said]), if_neg annotatable]
  cases pairs text with
  | error segment => simp
  | ok found => simp

/-- A text says nothing, or it is that of pairs which are all acceptable. -/
theorem parse_eq_ok_iff_renders {target : Target} {text : List Char} {hint : Hint}
    (annotatable : target ≠ .structured) :
    parse target text = .ok hint ↔
      isAllBlank text = true ∧ hint = {} ∨
        ∃ found, Renders found text ∧ found.foldlM (add target) {} = .ok hint := by
  cases blank : isAllBlank text with
  | true =>
    have nothing : parse target text = .ok {} := if_pos blank
    rw [nothing]
    constructor
    · rintro ⟨⟩
      exact Or.inl ⟨rfl, rfl⟩
    · rintro (⟨-, rfl⟩ | ⟨found, renders, -⟩)
      · rfl
      · rw [renders.pairFollows.not_blank] at blank
        cases blank
  | false =>
    rw [parse_eq_ok_iff blank annotatable]
    simp [pairs_eq_ok_iff]

/-- What holds of no hint at all and is kept by each pair holds of every hint that is read. -/
theorem parse_invariant {target : Target} {P : Hint → Prop} (nothing : P {})
    (step : ∀ {hint hint' pair}, P hint → add target hint pair = .ok hint' → P hint')
    {text : List Char} {hint : Hint} (h : parse target text = .ok hint) : P hint := by
  have run : ∀ {found : List Pair} {start : Hint}, P start →
      found.foldlM (add target) start = .ok hint → P hint := by
    intro found
    induction found with
    | nil =>
      rintro start holds ⟨⟩
      exact holds
    | cons pair rest ih =>
      intro start holds folded
      obtain ⟨next, taken, folded⟩ := foldlM_cons_eq_ok_iff.mp folded
      exact ih (step holds taken) folded
  cases blank : isAllBlank text with
  | true =>
    unfold parse at h
    rw [if_pos blank] at h
    cases h
    exact nothing
  | false =>
    have annotatable : target ≠ .structured := by
      rintro rfl
      unfold parse at h
      simp [blank] at h
    obtain ⟨found, -, folded⟩ := (parse_eq_ok_iff blank annotatable).mp h
    exact run nothing folded

/-! ## Hints -/

def SampleFits (target : Target) (hint : Hint) : Prop :=
  ∀ sample, hint.sample = some sample → target.Takes sample

/-- Each part of the hint is one that the kind of the field takes. -/
structure Suits (target : Target) (hint : Hint) : Prop where
  sample : hint.SampleFits target
  pattern : hint.pattern.isSome = true → hint.sample.isSome = true ∧ target = .string
  min : hint.min.isSome = true → target = .sequence

theorem accepts_pattern_iff {target : Target} :
    target.accepts .pattern = true ↔ target = .string := by
  cases target <;> simp [Target.accepts]

theorem accepts_min_iff {target : Target} : target.accepts .min = true ↔ target = .sequence := by
  cases target <;> simp [Target.accepts]

theorem suits_nothing (target : Target) : ({} : Hint).Suits target where
  sample _ none := by cases none
  pattern none := by cases none
  min none := by cases none

theorem Suits.add {target : Target} {hint hint' : Hint} {pair : Pair} (suits : hint.Suits target)
    (h : Hint.add target hint pair = .ok hint') : hint'.Suits target := by
  obtain ⟨key, -, accepts, -, -, stored⟩ := add_eq_ok_iff.mp h
  cases key with
  | sample =>
    obtain ⟨sample, read, rfl⟩ := set_sample_eq_ok_iff.mp stored
    refine ⟨fun other same => ?_, fun given => ⟨rfl, (suits.pattern given).2⟩, suits.min⟩
    obtain rfl := Option.some.inj same
    exact readSample_takes read
  | pattern =>
    obtain ⟨sampled, rfl⟩ := set_pattern_eq_ok_iff.mp stored
    exact ⟨suits.sample, fun _ => ⟨sampled, accepts_pattern_iff.mp accepts⟩, suits.min⟩
  | min =>
    obtain ⟨bound, -, rfl⟩ := set_min_eq_ok_iff.mp stored
    exact ⟨suits.sample, suits.pattern, fun _ => accepts_min_iff.mp accepts⟩

theorem Suits.eq_nothing {hint : Hint} (suits : hint.Suits .structured) : hint = {} := by
  obtain ⟨sample, pattern, min⟩ := hint
  cases sample with
  | some sample => cases suits.sample sample rfl
  | none =>
    cases pattern with
    | some form => cases (suits.pattern rfl).2
    | none =>
      cases min with
      | some n => cases suits.min rfl
      | none => rfl

theorem suits_of_parse {target : Target} {text : List Char} {hint : Hint}
    (h : parse target text = .ok hint) : hint.Suits target :=
  parse_invariant (suits_nothing target) Suits.add h

end ContractFixture.Hint
