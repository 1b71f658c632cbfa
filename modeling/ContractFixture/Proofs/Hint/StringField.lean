import ContractFixture.Proofs.Hint.Pairs
import ContractFixture.Proofs.Hint.Sample

/-! # Annotations of strings -/

namespace ContractFixture.Hint

open Text (isAllBlank)

/-- What an annotation that is not blank says about a string. -/
inductive StringAnnotation : List Char → Hint → Prop
  | sample {text sample : List Char} (written : Pair.Written ⟨"example".toList, sample⟩ text)
      (some_sample : sample ≠ []) (unbroken : Unbroken sample) :
      StringAnnotation text { sample := some (.string (String.ofList sample)) }
  | pattern {text rest sample form : List Char}
      (written : Pair.Written ⟨"example".toList, sample⟩ text)
      (some_sample : sample ≠ []) (unbroken : Unbroken sample)
      (written_form : Pair.Written ⟨"regex".toList, form⟩ rest) (some_form : form ≠ []) :
      StringAnnotation (text ++ ',' :: rest)
        { sample := some (.string (String.ofList sample)), pattern := some (String.ofList form) }

/-! ## One pair -/

theorem add_string_eq_ok_iff {hint hint' : Hint} {pair : Pair} :
    add .string hint pair = .ok hint' ↔
      isAllBlank pair.value = false ∧
        (pair.key = "example".toList ∧ hint.sample = none ∧
            hint' = { hint with sample := some (.string (String.ofList pair.value)) } ∨
          pair.key = "regex".toList ∧ hint.sample.isSome ∧ hint.pattern = none ∧
            hint' = { hint with pattern := some (String.ofList pair.value) }) := by
  rw [add_eq_ok_iff]
  simp only [Key.ofName?_ofList_eq_some_iff]
  constructor
  · rintro ⟨key, name, accepts, new, value, stored⟩
    refine ⟨value, ?_⟩
    cases key with
    | sample =>
      obtain ⟨sample, ⟨⟩, rfl⟩ := set_sample_eq_ok_iff.mp stored
      exact Or.inl ⟨name, by simpa [has] using new, rfl⟩
    | pattern =>
      obtain ⟨sampled, rfl⟩ := set_pattern_eq_ok_iff.mp stored
      exact Or.inr ⟨name, sampled, by simpa [has] using new, rfl⟩
    | min => cases accepts
  · rintro ⟨value, ⟨name, new, rfl⟩ | ⟨name, sampled, new, rfl⟩⟩
    · exact ⟨.sample, name, rfl, by simp [has, new], value, rfl⟩
    · exact ⟨.pattern, name, rfl, by simp [has, new], value,
        set_pattern_eq_ok_iff.mpr ⟨sampled, rfl⟩⟩

/-! ## All pairs -/

theorem add_string_full {sample : Sample} {form : String} {min : Option UInt64} {pair : Pair}
    {hint : Hint} : add .string ⟨some sample, some form, min⟩ pair ≠ .ok hint := by
  intro h
  obtain ⟨-, ⟨-, none, -⟩ | ⟨-, -, none, -⟩⟩ := add_string_eq_ok_iff.mp h <;> cases none

theorem foldlM_string_eq_ok_iff {found : List Pair} {hint : Hint} (given : found ≠ []) :
    found.foldlM (add .string) {} = .ok hint ↔
      (∃ sample, isAllBlank sample = false ∧ found = [⟨"example".toList, sample⟩] ∧
          hint = { sample := some (.string (String.ofList sample)) }) ∨
        ∃ sample form, isAllBlank sample = false ∧ isAllBlank form = false ∧
          found = [⟨"example".toList, sample⟩, ⟨"regex".toList, form⟩] ∧
          hint = { sample := some (.string (String.ofList sample)),
                   pattern := some (String.ofList form) } := by
  constructor
  · intro h
    obtain ⟨⟨key, sample⟩, rest, rfl⟩ := List.exists_cons_of_ne_nil given
    obtain ⟨next, first, h⟩ := foldlM_cons_eq_ok_iff.mp h
    obtain ⟨value, ⟨rfl, -, rfl⟩ | ⟨-, sampled, -⟩⟩ := add_string_eq_ok_iff.mp first
    · match rest with
      | [] =>
        cases h
        exact Or.inl ⟨sample, value, rfl, rfl⟩
      | ⟨key, form⟩ :: rest =>
        obtain ⟨next, second, h⟩ := foldlM_cons_eq_ok_iff.mp h
        obtain ⟨value', ⟨-, none, -⟩ | ⟨rfl, -, -, rfl⟩⟩ := add_string_eq_ok_iff.mp second
        · cases none
        · match rest with
          | [] =>
            cases h
            exact Or.inr ⟨sample, form, value, value', rfl, rfl⟩
          | third :: rest =>
            obtain ⟨next, third, -⟩ := foldlM_cons_eq_ok_iff.mp h
            exact absurd third add_string_full
    · cases sampled
  · rintro (⟨sample, value, rfl, rfl⟩ | ⟨sample, form, value, value', rfl, rfl⟩)
    · refine foldlM_cons_eq_ok_iff.mpr ⟨_, ?_, rfl⟩
      exact add_string_eq_ok_iff.mpr ⟨value, Or.inl ⟨rfl, rfl, rfl⟩⟩
    · rw [foldlM_cons_eq_ok_iff]
      refine ⟨_, add_string_eq_ok_iff.mpr ⟨value, Or.inl ⟨rfl, rfl, rfl⟩⟩, ?_⟩
      refine foldlM_cons_eq_ok_iff.mpr ⟨_, ?_, rfl⟩
      exact add_string_eq_ok_iff.mpr ⟨value', Or.inr ⟨rfl, rfl, rfl, rfl⟩⟩

/-! ## Texts -/

theorem example_ne_regex : "example".toList ≠ "regex".toList := by decide

theorem annotation_of_renders {found : List Pair} {text : List Char} {hint : Hint}
    (renders : Renders found text) (folded : found.foldlM (add .string) {} = .ok hint) :
    StringAnnotation text hint := by
  have someValue : ∀ {value : List Char}, isAllBlank value = false → value ≠ [] := by
    rintro _ no_blank rfl
    cases no_blank
  rcases (foldlM_string_eq_ok_iff renders.ne_nil).mp folded with
    ⟨sample, value, rfl, rfl⟩ | ⟨sample, form, value, value', rfl, rfl⟩
  · obtain ⟨written, whole⟩ := renders_singleton_iff.mp renders
    exact .sample written (someValue value) (whole.resolve_left example_ne_regex)
  · cases renders with
    | cons written _ unbroken renders =>
      obtain ⟨written', -⟩ := renders_singleton_iff.mp renders
      exact .pattern written (someValue value) unbroken written' (someValue value')

theorem StringAnnotation.renders {text : List Char} {hint : Hint} (h : StringAnnotation text hint) :
    ∃ found, Renders found text ∧ found.foldlM (add .string) {} = .ok hint := by
  cases h with
  | sample written some_sample unbroken =>
    have value := Text.isAllBlank_eq_false_of_flush written.value some_sample
    refine ⟨_, .last written (Or.inr unbroken), ?_⟩
    exact (foldlM_string_eq_ok_iff (by simp)).mpr (Or.inl ⟨_, value, rfl, rfl⟩)
  | pattern written some_sample unbroken written' some_form =>
    have value := Text.isAllBlank_eq_false_of_flush written.value some_sample
    have value' := Text.isAllBlank_eq_false_of_flush written'.value some_form
    refine ⟨_, .cons written example_ne_regex unbroken (.last written' (Or.inl rfl)), ?_⟩
    exact (foldlM_string_eq_ok_iff (by simp)).mpr (Or.inr ⟨_, _, value, value', rfl, rfl⟩)

/-- A text annotates a string exactly if it is blank, an example, or an example with a pattern after
it. -/
theorem parse_string_eq_ok_iff {text : List Char} {hint : Hint} :
    parse .string text = .ok hint ↔
      isAllBlank text = true ∧ hint = {} ∨ StringAnnotation text hint := by
  rw [parse_eq_ok_iff_renders (by decide)]
  refine or_congr_right ⟨?_, StringAnnotation.renders⟩
  rintro ⟨found, renders, folded⟩
  exact annotation_of_renders renders folded

end ContractFixture.Hint
