import ContractFixture.Text.Blank

/-! # White space at the ends of a text -/

namespace ContractFixture.Text

theorem isAllBlank_iff {text : List Char} :
    isAllBlank text = true ↔ ∀ c ∈ text, isBlank c = true := List.all_eq_true

@[simp] theorem isAllBlank_reverse (text : List Char) :
    isAllBlank text.reverse = isAllBlank text := List.all_reverse

/-! ## The start -/

def Flush (text : List Char) : Prop := ∀ c ∈ text.head?, isBlank c = false

theorem Flush.of_append {front back : List Char} (h : Flush (front ++ back)) : Flush front := by
  intro c first
  exact h c (by simp_all)

theorem Flush.append {front : List Char} (h : Flush front) (some : front ≠ []) (back : List Char) :
    Flush (front ++ back) := by
  obtain ⟨c, rest, rfl⟩ := List.exists_cons_of_ne_nil some
  exact h

theorem isAllBlank_eq_false_of_flush {text : List Char} (h : Flush text) (some : text ≠ []) :
    isAllBlank text = false := by
  obtain ⟨c, rest, rfl⟩ := List.exists_cons_of_ne_nil some
  have first : isBlank c = false := h c rfl
  simp [isAllBlank, first]

theorem flush_trimStart (text : List Char) : Flush (trimStart text) := by
  intro c first
  have head := List.head?_dropWhile_not isBlank text
  rw [← trimStart, Option.mem_def.mp first] at head
  exact head

theorem trimStart_of_flush {text : List Char} (h : Flush text) : trimStart text = text := by
  cases text with
  | nil => rfl
  | cons c rest => exact List.dropWhile_cons_of_neg (by simp [h c rfl])

theorem trimStart_blank_append {blank : List Char} (h : isAllBlank blank = true)
    (text : List Char) : trimStart (blank ++ text) = trimStart text :=
  List.dropWhile_append_of_pos (isAllBlank_iff.mp h)

theorem trimStart_eq_iff {text rest : List Char} :
    trimStart text = rest ↔
      Flush rest ∧ ∃ blank, isAllBlank blank = true ∧ text = blank ++ rest := by
  constructor
  · rintro rfl
    refine ⟨flush_trimStart text, text.takeWhile isBlank, List.all_takeWhile, ?_⟩
    exact List.takeWhile_append_dropWhile.symm
  · rintro ⟨flush, blank, h, rfl⟩
    rw [trimStart_blank_append h, trimStart_of_flush flush]

/-! ## Both ends -/

theorem trimEnd_eq_iff {text rest : List Char} :
    trimEnd text = rest ↔
      Flush rest.reverse ∧ ∃ blank, isAllBlank blank = true ∧ text = rest ++ blank := by
  have mirrored : trimEnd text = (trimStart text.reverse).reverse := rfl
  rw [mirrored, List.reverse_eq_iff, trimStart_eq_iff]
  refine and_congr_right fun _ => ⟨?_, ?_⟩
  · rintro ⟨blank, h, split⟩
    refine ⟨blank.reverse, by simpa using h, ?_⟩
    simpa using congrArg List.reverse split
  · rintro ⟨blank, h, rfl⟩
    exact ⟨blank.reverse, by simpa using h, by simp⟩

def Padded (inner text : List Char) : Prop :=
  ∃ before after, isAllBlank before = true ∧ isAllBlank after = true ∧
    text = before ++ inner ++ after

theorem trim_eq_iff {text inner : List Char} (some : inner ≠ []) :
    trim text = inner ↔ Flush inner ∧ Flush inner.reverse ∧ Padded inner text := by
  unfold trim
  rw [trimEnd_eq_iff]
  constructor
  · rintro ⟨ending, after, blank', split⟩
    obtain ⟨start, before, blank, rfl⟩ := trimStart_eq_iff.mp split
    exact ⟨start.of_append, ending, before, after, blank, blank', by simp⟩
  · rintro ⟨start, ending, before, after, blank, blank', rfl⟩
    refine ⟨ending, after, blank', trimStart_eq_iff.mpr ?_⟩
    exact ⟨start.append some after, before, blank, by simp⟩

theorem mem_padded {inner text : List Char} (h : Padded inner text) {c : Char} (member : c ∈ text) :
    isBlank c = true ∨ c ∈ inner := by
  obtain ⟨before, after, blank, blank', rfl⟩ := h
  rw [List.mem_append, List.mem_append] at member
  rcases member with (member | member) | member
  · exact Or.inl (isAllBlank_iff.mp blank c member)
  · exact Or.inr member
  · exact Or.inl (isAllBlank_iff.mp blank' c member)

end ContractFixture.Text
