import ContractFixture.Proofs.Decimal.Literal
import ContractFixture.Proofs.Hint.Sample

/-! # Annotations of booleans, integers and lists -/

namespace ContractFixture.Hint

open Text (isBlank isAllBlank trim trimStart trimEnd Flush Padded)

def booleanLiteral : Bool → List Char
  | true => "true".toList
  | false => "false".toList

/-- What a literal says about a field of the kind, under its key. -/
inductive Literal : Target → Key → List Char → Hint → Prop
  | boolean (value : Bool) :
      Literal .boolean .sample (booleanLiteral value) { sample := some (.boolean value) }
  | integer {width : IntegerWidth} {literal : List Char} {n : Int}
      (denotes : Decimal.Signed literal n) (low : width.low ≤ n) (high : n ≤ width.high) :
      Literal (.integer width) .sample literal { sample := some (.integer n) }
  | sequence {literal : List Char} {n : Nat}
      (denotes : Decimal.Unsigned literal n) (fits : n < UInt64.size) :
      Literal .sequence .min literal { min := some (.ofNatLT n fits) }

/-- White space can stand around the key and the literal, and `after` is that behind the literal. -/
def Assigns (key literal after text : List Char) : Prop :=
  ∃ before blank, Padded key before ∧ isAllBlank blank = true ∧ isAllBlank after = true ∧
    text = before ++ '=' :: (blank ++ literal ++ after)

/-- What an annotation that is one literal says about a field of the kind. -/
def LiteralAnnotation (target : Target) (text : List Char) (hint : Hint) : Prop :=
  ∃ key literal after, Assigns key.name.toList literal after text ∧ Literal target key literal hint

/-! ## Texts without white space -/

structure Solid (text : List Char) : Prop where
  some : text ≠ []
  inside : ∀ c ∈ text, isBlank c = false ∧ c ≠ ','

theorem Solid.flush {text : List Char} (h : Solid text) : Flush text := by
  intro c first
  exact (h.inside c (List.mem_of_head? first)).1

theorem Solid.reverse {text : List Char} (h : Solid text) : Solid text.reverse where
  some := by simpa using h.some
  inside := by simpa using h.inside

theorem solid_booleanLiteral (value : Bool) : Solid (booleanLiteral value) := by
  cases value <;> constructor <;> simp [booleanLiteral, isBlank, Text.loneBlanks]

theorem isKeyChar_of_isDigit {c : Char} (h : c.isDigit = true) : isKeyChar c = true := by
  simp [isKeyChar, Char.isAlphanum, h]

theorem solid_of_digits {text : List Char} {n : Nat} (h : Decimal.Digits text n) : Solid text where
  some := h.ne_nil
  inside c member := by
    refine ⟨isBlank_eq_false_of_isKeyChar (isKeyChar_of_isDigit (h.all c member)), ?_⟩
    rintro rfl
    cases h.all _ member

theorem Solid.cons {c : Char} {text : List Char} (h : Solid text) (no_blank : isBlank c = false)
    (no_comma : c ≠ ',') : Solid (c :: text) where
  some := by simp
  inside := by
    simp only [List.mem_cons, forall_eq_or_imp]
    exact ⟨⟨no_blank, no_comma⟩, h.inside⟩

theorem solid_of_signed {text : List Char} {n : Int} (h : Decimal.Signed text n) : Solid text := by
  cases h with
  | bare digits => exact solid_of_digits digits
  | plus digits | minus digits => exact (solid_of_digits digits).cons (by decide) (by decide)

theorem solid_of_unsigned {text : List Char} {n : Nat} (h : Decimal.Unsigned text n) :
    Solid text := by
  cases h with
  | bare digits => exact solid_of_digits digits
  | plus digits => exact (solid_of_digits digits).cons (by decide) (by decide)

theorem Literal.solid {target : Target} {key : Key} {literal : List Char} {hint : Hint}
    (h : Literal target key literal hint) : Solid literal := by
  cases h with
  | boolean value => exact solid_booleanLiteral value
  | integer denotes => exact solid_of_signed denotes
  | sequence denotes => exact solid_of_unsigned denotes

/-! ## Assignments -/

section

variable {key literal after text : List Char} (solid : Solid literal)

include solid

theorem trim_append_blank (blank : isAllBlank after = true) :
    trim (literal ++ after) = literal := by
  rw [Text.trim_eq_iff solid.some]
  exact ⟨solid.flush, solid.reverse.flush, [], after, rfl, blank, rfl⟩

theorem unbroken_append_blank (blank : isAllBlank after = true) : Unbroken (literal ++ after) := by
  intro front back split
  have member : ',' ∈ literal ++ after := by simp [split]
  rcases List.mem_append.mp member with inside | behind
  · exact absurd rfl (solid.inside _ inside).2
  · have comma := Text.isAllBlank_iff.mp blank _ behind
    cases comma

omit solid in
theorem Assigns.blank (h : Assigns key literal after text) : isAllBlank after = true := by
  obtain ⟨-, -, -, -, blank, -⟩ := h
  exact blank

theorem Assigns.written (isKey : isKey key = true) (h : Assigns key literal after text) :
    Pair.Written ⟨key, literal ++ after⟩ text := by
  obtain ⟨before, blank, padded, isBlank, -, rfl⟩ := h
  exact ⟨isKey, solid.flush.append solid.some after, before, blank, padded, isBlank, by simp⟩

end

theorem assigns_of_written {key value text : List Char}
    (written : Pair.Written ⟨key, value⟩ text) :
    ∃ after, Assigns key (trim value) after text := by
  obtain ⟨-, flush, before, blank, padded, isBlank, rfl⟩ := written
  -- No white space is left before the value, so trimming only takes off its end.
  have ends : trimEnd value = trim value := by rw [trim, Text.trimStart_of_flush flush]
  obtain ⟨-, after, isBlank', whole⟩ := Text.trimEnd_eq_iff.mp ends
  refine ⟨after, before, blank, padded, isBlank, isBlank', ?_⟩
  rw [List.append_assoc, ← whole]

/-! ## The only key -/

def Target.Only (target : Target) (key : Key) : Prop :=
  ∀ other, target.accepts other = true ↔ other = key

theorem boolean_only : Target.boolean.Only .sample := by
  intro other
  cases other <;> simp [Target.accepts]

theorem integer_only (width : IntegerWidth) : (Target.integer width).Only .sample := by
  intro other
  cases other <;> simp [Target.accepts]

theorem sequence_only : Target.sequence.Only .min := by
  intro other
  cases other <;> simp [Target.accepts]

theorem Literal.accepts {target : Target} {key : Key} {literal : List Char} {hint : Hint}
    (h : Literal target key literal hint) : target.accepts key = true := by
  cases h <;> rfl

section

variable {target : Target} {key : Key} (only : target.Only key)

include only

theorem Target.Only.annotatable : target ≠ .structured := by
  rintro rfl
  cases (only key).mpr rfl

theorem pair_of_add {hint hint' : Hint} {pair : Pair} (h : add target hint pair = .ok hint') :
    pair.key = key.name.toList ∧ hint.has key = false ∧
      hint.set target key pair.value = .ok hint' := by
  obtain ⟨other, named, accepts, new, -, stored⟩ := add_eq_ok_iff.mp h
  obtain rfl := (only other).mp accepts
  exact ⟨Key.ofName?_ofList_eq_some_iff.mp named, new, stored⟩

theorem value_of_foldlM {found : List Pair} {hint : Hint} (given : found ≠ [])
    (h : found.foldlM (add target) {} = .ok hint) :
    ∃ value, found = [⟨key.name.toList, value⟩] ∧
      ({} : Hint).set target key value = .ok hint := by
  obtain ⟨⟨name, value⟩, rest, rfl⟩ := List.exists_cons_of_ne_nil given
  obtain ⟨next, first, folded⟩ := foldlM_cons_eq_ok_iff.mp h
  obtain ⟨rfl, -, stored⟩ := pair_of_add only first
  cases rest with
  | nil =>
    cases folded
    exact ⟨value, rfl, stored⟩
  | cons pair rest =>
    -- It would give the same key again.
    obtain ⟨_, second, -⟩ := foldlM_cons_eq_ok_iff.mp folded
    obtain ⟨-, new, -⟩ := pair_of_add only second
    rw [has_of_set stored] at new
    cases new

theorem add_only {value : List Char} (given : isAllBlank value = false) :
    add target {} ⟨key.name.toList, value⟩ = ({} : Hint).set target key value := by
  have named : Key.ofName? key.name = some key := Key.ofName?_eq_some_iff.mpr rfl
  have accepted := (only key).mpr rfl
  have new : ({} : Hint).has key = false := by cases key <;> rfl
  simp [add, named, accepted, new, given]

theorem parse_of_written {value text : List Char}
    (written : Pair.Written ⟨key.name.toList, value⟩ text) (unbroken : Unbroken value)
    (given : isAllBlank value = false) : parse target text = ({} : Hint).set target key value := by
  have said := written.pairFollows.not_blank
  have read : pairs text = .ok [⟨key.name.toList, value⟩] :=
    pairs_eq_ok_iff.mpr (.last written (Or.inr unbroken))
  unfold parse
  rw [if_neg (by simp [said]), if_neg only.annotatable, read]
  simp [add_only only given]

theorem value_of_parse {text : List Char} {hint : Hint} (h : parse target text = .ok hint) :
    isAllBlank text = true ∧ hint = {} ∨
      ∃ value, Pair.Written ⟨key.name.toList, value⟩ text ∧
        ({} : Hint).set target key value = .ok hint := by
  refine ((parse_eq_ok_iff_renders only.annotatable).mp h).imp_right ?_
  rintro ⟨found, renders, folded⟩
  obtain ⟨value, rfl, stored⟩ := value_of_foldlM only renders.ne_nil folded
  exact ⟨value, (renders_singleton_iff.mp renders).1, stored⟩

end

/-! ## Literals -/

theorem booleanSample_eq_ok_iff {value : List Char} {sample : Sample} :
    booleanSample value = .ok sample ↔
      ∃ b, trim value = booleanLiteral b ∧ sample = .boolean b := by
  unfold booleanSample
  constructor
  · intro h
    split at h
    · cases h
      exact ⟨true, ‹_›, rfl⟩
    · split at h
      · cases h
        exact ⟨false, ‹_›, rfl⟩
      · cases h
  · rintro ⟨b, literal, rfl⟩
    rw [literal]
    cases b <;> rfl

theorem contains_u64_natCast_iff {n : Nat} :
    IntegerWidth.u64.contains n = true ↔ n < UInt64.size := by
  rw [IntegerWidth.contains_u64_iff, UInt64.size]
  omega

theorem readMin_eq_ok_iff {value : List Char} {bound : UInt64} :
    readMin value = .ok bound ↔
      ∃ n, Decimal.Unsigned (trim value) n ∧ ∃ fits : n < UInt64.size, bound = .ofNatLT n fits := by
  simp only [← Decimal.natural?_eq_some_iff]
  unfold readMin
  constructor
  · intro h
    split at h
    · cases h
    · rename_i n read
      split at h
      · rename_i word
        cases h
        refine ⟨n, read, contains_u64_natCast_iff.mp word, ?_⟩
        exact (UInt64.ofNatLT_eq_ofNat n).symm
      · cases h
  · rintro ⟨n, read, fits, rfl⟩
    rw [read, UInt64.ofNatLT_eq_ofNat]
    exact if_pos (contains_u64_natCast_iff.mpr fits)

theorem set_boolean_eq_ok_iff {value : List Char} {hint : Hint} :
    ({} : Hint).set .boolean .sample value = .ok hint ↔
      Literal .boolean .sample (trim value) hint := by
  simp only [set_sample_eq_ok_iff, readSample, booleanSample_eq_ok_iff]
  constructor
  · rintro ⟨_, ⟨b, literal, rfl⟩, rfl⟩
    rw [literal]
    exact .boolean b
  · intro h
    generalize trim value = literal at h
    cases h with
    | boolean b => exact ⟨_, ⟨b, rfl, rfl⟩, rfl⟩

theorem set_integer_eq_ok_iff {width : IntegerWidth} {value : List Char} {hint : Hint} :
    ({} : Hint).set (.integer width) .sample value = .ok hint ↔
      Literal (.integer width) .sample (trim value) hint := by
  simp only [set_sample_eq_ok_iff, readSample, integerSample_eq_ok_iff,
    Decimal.integer?_eq_some_iff, IntegerWidth.contains_iff]
  constructor
  · rintro ⟨_, ⟨n, denotes, ⟨low, high⟩, rfl⟩, rfl⟩
    exact .integer denotes low high
  · intro h
    cases h with
    | @integer _ _ n denotes low high => exact ⟨_, ⟨n, denotes, ⟨low, high⟩, rfl⟩, rfl⟩

theorem set_sequence_eq_ok_iff {value : List Char} {hint : Hint} :
    ({} : Hint).set .sequence .min value = .ok hint ↔
      Literal .sequence .min (trim value) hint := by
  simp only [set_min_eq_ok_iff, readMin_eq_ok_iff]
  constructor
  · rintro ⟨_, ⟨n, denotes, fits, rfl⟩, rfl⟩
    exact .sequence denotes fits
  · intro h
    cases h with
    | @sequence _ n denotes fits => exact ⟨_, ⟨n, denotes, fits, rfl⟩, rfl⟩

/-! ## Texts -/

theorem isKey_name (key : Key) : isKey key.name.toList = true := by cases key <;> decide

section

variable {target : Target} {key : Key} (only : target.Only key)

include only

theorem parse_of_assigns {literal after text : List Char} (solid : Solid literal)
    (assigns : Assigns key.name.toList literal after text) :
    parse target text = ({} : Hint).set target key (literal ++ after) := by
  have written := assigns.written solid (isKey_name key)
  have given : isAllBlank (literal ++ after) = false :=
    Text.isAllBlank_eq_false_of_flush written.value (by simp [solid.some])
  exact parse_of_written only written (unbroken_append_blank solid assigns.blank) given

theorem parse_eq_ok_iff_literal
    (stores : ∀ {value hint}, ({} : Hint).set target key value = .ok hint ↔
      Literal target key (trim value) hint) {text : List Char} {hint : Hint} :
    parse target text = .ok hint ↔
      isAllBlank text = true ∧ hint = {} ∨ LiteralAnnotation target text hint := by
  constructor
  · intro h
    refine (value_of_parse only h).imp_right ?_
    rintro ⟨value, written, stored⟩
    obtain ⟨after, assigns⟩ := assigns_of_written written
    exact ⟨key, trim value, after, assigns, stores.mp stored⟩
  · rintro (⟨blank, rfl⟩ | ⟨other, literal, after, assigns, denoted⟩)
    · exact if_pos blank
    · obtain rfl := (only other).mp denoted.accepts
      rw [parse_of_assigns only denoted.solid assigns, stores,
        trim_append_blank denoted.solid assigns.blank]
      exact denoted

end

theorem integerSample_beyond {width : IntegerWidth} {value : List Char} {n : Int}
    (denotes : Decimal.Signed (trim value) n) (beyond : ¬ (width.low ≤ n ∧ n ≤ width.high)) :
    integerSample width value =
      .error (if -(Nat.pow 2 127 : Nat) ≤ n ∧ n < (Nat.pow 2 127 : Nat) then .outOfRange n width
        else .invalidLiteral "integer" (String.ofList value)) := by
  have read := Decimal.integer?_eq_some_iff.mpr denotes
  simp only [← isWide_iff]
  rw [← IntegerWidth.contains_iff] at beyond
  rw [integerSample_of_literal read, if_neg beyond]
  cases isWide n <;> rfl

theorem parse_beyond {width : IntegerWidth} {literal after text : List Char} {n : Int}
    (assigns : Assigns "example".toList literal after text) (denotes : Decimal.Signed literal n)
    (beyond : ¬ (width.low ≤ n ∧ n ≤ width.high)) :
    parse (.integer width) text =
      .error (if -(Nat.pow 2 127 : Nat) ≤ n ∧ n < (Nat.pow 2 127 : Nat) then .outOfRange n width
        else .invalidLiteral "integer" (String.ofList (literal ++ after))) := by
  have solid := solid_of_signed denotes
  have same : trim (literal ++ after) = literal := trim_append_blank solid assigns.blank
  rw [parse_of_assigns (integer_only width) solid assigns, set, readSample,
    integerSample_beyond (by rwa [same]) beyond]
  rfl

theorem beyond_of_outOfRange {width other : IntegerWidth} {value : List Char} {n : Int}
    (h : integerSample width value = .error (.outOfRange n other)) :
    other = width ∧ ¬ (width.low ≤ n ∧ n ≤ width.high) := by
  cases literal : Decimal.integer? (trim value) with
  | none => simp [integerSample, literal, invalid] at h
  | some m =>
    rw [integerSample_of_literal literal] at h
    rw [← IntegerWidth.contains_iff]
    split at h
    · cases h
    · split at h
      · cases h
      · cases h
        exact ⟨rfl, ‹_›⟩

/-- What can be read is nothing, or one literal of the kind with white space around it. An integer
beyond its width is reported, unless it has more than 128 bits. -/
theorem parse_literal (text : List Char) (width : IntegerWidth) :
    (∀ target ∈ [Target.boolean, .integer width, .sequence], ∀ hint,
      parse target text = .ok hint ↔
        isAllBlank text = true ∧ hint = {} ∨ LiteralAnnotation target text hint) ∧
    (∀ literal after n, Assigns "example".toList literal after text → Decimal.Signed literal n →
      ¬ (width.low ≤ n ∧ n ≤ width.high) →
      parse (.integer width) text =
        .error (if -(Nat.pow 2 127 : Nat) ≤ n ∧ n < (Nat.pow 2 127 : Nat) then .outOfRange n width
          else .invalidLiteral "integer" (String.ofList (literal ++ after)))) ∧
    (∀ n, width.low ≤ n → n ≤ width.high → wordSample? n = some (.integer n)) ∧
    ∀ value n other, integerSample width value = .error (.outOfRange n other) →
      other = width ∧ ¬ (width.low ≤ n ∧ n ≤ width.high) := by
  refine ⟨?_, fun _ _ _ => parse_beyond, ?_, fun _ _ _ => beyond_of_outOfRange⟩
  · simp only [List.forall_mem_cons, List.not_mem_nil, false_implies, implies_true, and_true]
    exact ⟨fun _ => parse_eq_ok_iff_literal boolean_only set_boolean_eq_ok_iff,
      fun _ => parse_eq_ok_iff_literal (integer_only width) set_integer_eq_ok_iff,
      fun _ => parse_eq_ok_iff_literal sequence_only set_sequence_eq_ok_iff⟩
  · intro n low high
    exact wordSample?_of_contains (IntegerWidth.contains_iff.mpr ⟨low, high⟩)

theorem parse_literal_padded :
    parse (.integer .u8) " example = +007 ".toList = .ok { sample := some (.integer 7) } ∧
      parse (.integer .u8) "example=0300 ".toList = .error (.outOfRange 300 .u8) ∧
      parse .sequence "min=02".toList = .ok { min := some 2 } ∧
      wordSample? 255 = some (.integer 255) := by
  obtain ⟨reads, -, words, -⟩ := parse_literal " example = +007 ".toList .u8
  have seven : Literal (.integer .u8) .sample "+007".toList { sample := some (.integer 7) } :=
    .integer (Decimal.integer?_eq_some_iff.mp rfl) (by decide) (by decide)
  have assigns : Assigns "example".toList "+007".toList " ".toList " example = +007 ".toList :=
    ⟨" example ".toList, " ".toList, ⟨[' '], [' '], rfl, rfl, rfl⟩, rfl, rfl, rfl⟩
  have assigns' : Assigns "example".toList "0300".toList " ".toList "example=0300 ".toList :=
    ⟨"example".toList, [], ⟨[], [], rfl, rfl, rfl⟩, rfl, rfl, rfl⟩
  have two : Literal .sequence .min "02".toList { min := some 2 } :=
    .sequence (Decimal.natural?_eq_some_iff.mp rfl) (by decide)
  have assigns'' : Assigns "min".toList "02".toList [] "min=02".toList :=
    ⟨"min".toList, [], ⟨[], [], rfl, rfl, rfl⟩, rfl, rfl, rfl⟩
  refine ⟨?_, ?_, ?_, ?_⟩
  · exact (reads _ (by simp) _).mpr (Or.inr ⟨.sample, _, _, assigns, seven⟩)
  · have denotes : Decimal.Signed "0300".toList 300 := Decimal.integer?_eq_some_iff.mp rfl
    exact (parse_literal _ .u8).2.1 _ _ 300 assigns' denotes (by decide)
  · exact ((parse_literal _ .u8).1 _ (by simp) _).mpr (Or.inr ⟨.min, _, _, assigns'', two⟩)
  · exact words 255 (by decide) (by decide)

end ContractFixture.Hint
