import ContractFixture.Proofs.Json.Content

/-! # Written documents -/

namespace ContractFixture

/-! ## Numbers that are read back -/

/-- An integer from `-2 ^ 63` to `2 ^ 64 - 1`, the words of 64 bits. -/
def Number.IsWord : Number → Prop
  | .int value => -0x8000000000000000 ≤ value ∧ value ≤ 0xFFFFFFFFFFFFFFFF
  | .float _ _ => False

/-- Every number of the document is an integer within the words of 64 bits. -/
inductive Json.OnlyWords : Json → Prop
  | null : OnlyWords .null
  | bool {value : Bool} : OnlyWords (.bool value)
  | num {value : Number} (word : value.IsWord) : OnlyWords (.num value)
  | str {text : String} : OnlyWords (.str text)
  | arr {items : List Json} (each : ∀ item ∈ items, OnlyWords item) : OnlyWords (.arr items)
  | obj {members : List (String × Json)} (each : ∀ m ∈ members, OnlyWords m.2) :
      OnlyWords (.obj members)

/-! ## Integers -/

theorem head?_toDigits {n : Nat} (h : 10 ≤ n) :
    (Nat.toDigits 10 n).head? = (Nat.toDigits 10 (n / 10)).head? := by
  rw [Nat.toDigits_of_base_le (by decide) h, List.head?_append_of_ne_nil _ Nat.toDigits_ne_nil]

theorem head?_toDigits_ne_zero {n : Nat} (h : 0 < n) :
    (Nat.toDigits 10 n).head? ≠ some '0' := by
  induction n using Nat.strongRecOn with
  | _ n ih =>
    by_cases small : n < 10
    · have each : ∀ d < 10, 0 < d → Nat.digitChar d ≠ '0' := by decide
      rw [Nat.toDigits_of_lt_base small]
      simpa using each n small h
    · rw [head?_toDigits (Nat.le_of_not_lt small)]
      exact ih (n / 10) (by omega) (by omega)

theorem valueOfDigits_toDigits (n : Nat) : Decimal.valueOfDigits (Nat.toDigits 10 n) = n :=
  Nat.ofDigitChars_ten_toDigits

namespace Json.Grammar

open Reader (blank_nil spaced_of_inner)

theorem whole_toDigits (n : Nat) : Whole (Nat.toDigits 10 n) := by
  by_cases zero : n = 0
  · subst n
    exact .zero
  · have start := head?_toDigits_ne_zero (Nat.pos_of_ne_zero zero)
    have all : ∀ c ∈ Nat.toDigits 10 n, c.isDigit = true :=
      fun c => Nat.isDigit_of_mem_toDigits (by decide) (by decide)
    cases digits : Nat.toDigits 10 n with
    | nil => exact absurd digits Nat.toDigits_ne_nil
    | cons first rest =>
      rw [digits] at start all
      obtain ⟨digit, others⟩ := List.forall_mem_cons.mp all
      exact .digits digit (by simpa using start) others

theorem numeral_intText (n : Int) :
    Numeral (intText n) ⟨decide (n < 0), Nat.toDigits 10 n.natAbs, none, none⟩ := by
  have digits := whole_toDigits n.natAbs
  unfold intText
  split
  · rename_i negative
    rw [decide_eq_true negative]
    simpa using Numeral.mk .minus digits .absent .absent
  · rename_i positive
    rw [decide_eq_false positive]
    simpa using Numeral.mk .absent digits .absent .absent

theorem value_chars {n : Number} (word : n.IsWord) : Value n.chars (.num n) := by
  cases n with
  | float => exact word.elim
  | int n =>
    refine .num (numeral_intText n) (.word ⟨rfl, rfl, ?_, ?_, word.1, word.2⟩)
    · simp only [valueOfDigits_toDigits, decide_eq_true_eq]
      omega
    · simp only [decide_eq_true_eq]
      omega

/-! ## Strings -/

theorem hexDigit_hexDigit {n : Nat} (h : n < 16) : HexDigit (Json.hexDigit n) n := by
  have table : ∀ n < 16, hexDigits[n]? = some (Json.hexDigit n) := by decide
  exact Or.inl (table n h)

theorem character_escape (c : Char) : Character (escape c) c := by
  have short : ∀ l c, (l, c) ∈ escapeLetters → Character ['\\', l] c :=
    fun l c listed => .escaped (.letter listed)
  unfold escape
  split
  · exact short _ _ (by decide)
  · exact short _ _ (by decide)
  · exact short _ _ (by decide)
  · exact short _ _ (by decide)
  · exact short _ _ (by decide)
  · exact short _ _ (by decide)
  · exact short _ _ (by decide)
  · rename_i no_quote no_backslash _ _ _ _ _
    split
    · rename_i control
      have unit := CodeUnit.mk (hexDigit_hexDigit (n := 0) (by decide))
        (hexDigit_hexDigit (n := 0) (by decide)) (hexDigit_hexDigit (n := c.toNat / 16) (by omega))
        (hexDigit_hexDigit (n := c.toNat % 16) (by omega))
      have value : ((0 * 16 + 0) * 16 + c.toNat / 16) * 16 + c.toNat % 16 = c.toNat := by omega
      rw [value] at unit
      exact .escaped (.unit unit)
    · rename_i printable
      exact .raw (by omega) no_quote no_backslash

theorem characters_escape (cs : List Char) : Characters (cs.flatMap escape) cs := by
  induction cs with
  | nil => exact .nil
  | cons c cs ih => exact .cons (character_escape c) ih

theorem quoted_quote (text : String) : Quoted (quote text) text := by
  have quoted := Quoted.mk (characters_escape text.toList)
  rwa [String.ofList_toList] at quoted

/-! ## What follows the first piece

Each layout writes the pieces of a container one after the other, each with a comma before it and
the closing character behind the last one. -/

theorem more_of_tail {α : Type} {close : Char} {P : List Char → α → Prop} {blank : List Char}
    (piece : α → List Char) (tail : List α → List Char) (white : Blank blank)
    (atEnd : tail [] = blank ++ [close])
    (next : ∀ x xs, tail (x :: xs) = ',' :: piece x ++ tail xs) {xs : List α}
    (each : ∀ x ∈ xs, P (piece x) x) : More close P (tail xs) xs := by
  induction xs with
  | nil =>
    rw [atEnd]
    exact .close white
  | cons x xs ih =>
    obtain ⟨first, others⟩ := List.forall_mem_cons.mp each
    have step : More close P ([] ++ ',' :: piece x ++ tail xs) (x :: xs) :=
      .next blank_nil first (ih others)
    rw [next]
    exact step

/-! ## Compact layout -/

theorem member_compact {text : List Char} {v : Json} (key : String) (h : Value text v) :
    Member (Spaced Value) (quote key ++ ':' :: text) (key, v) := by
  have member := Member.mk (spaced_of_inner (quoted_quote key)) blank_nil (spaced_of_inner h)
  simpa using member

theorem more_compactItems {items : List Json}
    (each : ∀ item ∈ items, Value item.compactChars item) :
    More ']' (Spaced Value) (compactItems items) items :=
  more_of_tail compactChars compactItems blank_nil rfl (fun _ _ => rfl)
    fun item member => spaced_of_inner (each item member)

theorem more_compactMembers {members : List (String × Json)}
    (each : ∀ m ∈ members, Value m.2.compactChars m.2) :
    More '}' (Member (Spaced Value)) (compactMembers members) members := by
  have next : ∀ m rest, compactMembers (m :: rest) =
      ',' :: (quote m.1 ++ ':' :: m.2.compactChars) ++ compactMembers rest := by
    intro m rest
    simp [compactMembers]
  exact more_of_tail _ compactMembers blank_nil rfl next
    fun m member => member_compact m.1 (each m member)

theorem value_compactChars {v : Json} (words : v.OnlyWords) : Value v.compactChars v := by
  induction v with
  | null => exact .null
  | bool value => cases value with
    | true => exact .true
    | false => exact .false
  | num n =>
    cases words with
    | num word => exact value_chars word
  | str text => exact .str (quoted_quote text)
  | arr items ih =>
    cases words with
    | arr words =>
      have each := fun item member => ih item member (words item member)
      cases items with
      | nil => exact .arr (.empty blank_nil)
      | cons item rest =>
        obtain ⟨first, others⟩ := List.forall_mem_cons.mp each
        exact .arr (.pieces (spaced_of_inner first) (more_compactItems others))
  | obj members ih =>
    cases words with
    | obj words =>
      have each := fun m member => ih m member (words m member)
      cases members with
      | nil => exact .obj (.empty blank_nil)
      | cons m rest =>
        obtain ⟨first, others⟩ := List.forall_mem_cons.mp each
        have pieces := Enclosed.pieces (member_compact m.1 first) (more_compactMembers others)
        simpa [compactChars] using Value.obj pieces

/-! ## Pretty layout -/

theorem blank_newLine (level : Nat) : Blank (newLine level) := by
  intro c member
  rcases List.mem_cons.mp member with rfl | member
  · exact Or.inr (Or.inl rfl)
  · exact Or.inl (List.eq_of_mem_replicate member)

theorem member_pretty {text : List Char} {v : Json} (level : Nat) (key : String)
    (h : Value text v) :
    Member (Spaced Value) (newLine level ++ quote key ++ ':' :: ' ' :: text) (key, v) := by
  have named : Spaced Quoted (newLine level ++ quote key) key :=
    .mk (blank_newLine level) (quoted_quote key)
  have spaced : Spaced Value ([' '] ++ text) v := .mk (by simp [Blank]) h
  simpa using Member.mk named blank_nil spaced

theorem more_prettyItems {level : Nat} {items : List Json}
    (each : ∀ item ∈ items, Value (item.prettyChars (level + 1)) item) :
    More ']' (Spaced Value) (prettyItems level items) items :=
  more_of_tail (fun item => newLine (level + 1) ++ item.prettyChars (level + 1))
    (prettyItems level) (blank_newLine level) rfl (fun _ _ => by simp [prettyItems])
    fun item member => .mk (blank_newLine (level + 1)) (each item member)

theorem more_prettyMembers {level : Nat} {members : List (String × Json)}
    (each : ∀ m ∈ members, Value (m.2.prettyChars (level + 1)) m.2) :
    More '}' (Member (Spaced Value)) (prettyMembers level members) members := by
  have next : ∀ m rest, prettyMembers level (m :: rest) =
      ',' :: (newLine (level + 1) ++ quote m.1 ++ ':' :: ' ' :: m.2.prettyChars (level + 1))
        ++ prettyMembers level rest := by
    intro m rest
    simp [prettyMembers]
  exact more_of_tail _ (prettyMembers level) (blank_newLine level) rfl next
    fun m member => member_pretty (level + 1) m.1 (each m member)

theorem value_prettyChars {v : Json} (words : v.OnlyWords) (level : Nat) :
    Value (v.prettyChars level) v := by
  induction v generalizing level with
  | arr items ih =>
    cases words with
    | arr words =>
      have each := fun item member => ih item member (words item member) (level + 1)
      cases items with
      | nil => exact .arr (.empty blank_nil)
      | cons item rest =>
        obtain ⟨first, others⟩ := List.forall_mem_cons.mp each
        have pieces := Enclosed.pieces (.mk (blank_newLine (level + 1)) first)
          (more_prettyItems others)
        simpa [prettyChars] using Value.arr pieces
  | obj members ih =>
    cases words with
    | obj words =>
      have each := fun m member => ih m member (words m member) (level + 1)
      cases members with
      | nil => exact .obj (.empty blank_nil)
      | cons m rest =>
        obtain ⟨first, others⟩ := List.forall_mem_cons.mp each
        have pieces := Enclosed.pieces (member_pretty (level + 1) m.1 first)
          (more_prettyMembers others)
        simpa [prettyChars] using Value.obj pieces
  | _ => exact value_compactChars words

theorem document_of_value {text : List Char} {v : Json} (h : Value text v) : Document text v := by
  simpa using Document.mk (spaced_of_inner h) blank_nil

end Json.Grammar

namespace Json

open Grammar

/-! ## Reading what was written -/

theorem parse_written {text : List Char} {v : Json} (written : Value text v)
    (canonical : v.IsCanonical) :
    (v.depth ≤ maxDepth → parse (String.ofList text) = .ok v) ∧
    (maxDepth < v.depth → ∃ e, parse (String.ofList text) = .error e ∧ e.fault = .tooDeep) := by
  have derived : Document (String.ofList text).toList v := by
    rw [String.toList_ofList]
    exact document_of_value written
  refine ⟨fun within => ?_, parse_of_deep derived⟩
  exact parse_eq_ok_iff.mpr ⟨v, derived, within, (canonical_of_isCanonical canonical).symm⟩

theorem display_of_ne_str {v : Json} (h : ∀ text, v ≠ .str text) : v.display = v.compact := by
  cases v with
  | str text => exact absurd rfl (h text)
  | _ => rfl

/-- Reading undoes both layouts of a document in canonical form with integers of 64 bits, and
refuses both where the document nests too deep. -/
theorem parse_layout {v : Json} (canonical : v.IsCanonical) (words : v.OnlyWords) :
    (v.depth ≤ 127 → parse v.pretty = .ok v ∧ ((∀ text, v ≠ .str text) → parse v.display = .ok v)) ∧
    (127 < v.depth →
      (∃ e, parse v.pretty = .error e ∧ e.fault.message = "recursion limit exceeded") ∧
      (∃ e, parse v.display = .error e ∧ e.fault.message = "recursion limit exceeded")) := by
  obtain ⟨readPretty, deepPretty⟩ := parse_written (value_prettyChars words 0) canonical
  obtain ⟨readCompact, deepCompact⟩ := parse_written (value_compactChars words) canonical
  constructor
  · intro within
    refine ⟨readPretty within, fun noString => ?_⟩
    rw [display_of_ne_str noString]
    exact readCompact within
  · intro deep
    have noString : ∀ text, v ≠ .str text := by
      rintro text rfl
      exact absurd deep (Nat.not_lt_zero _)
    obtain ⟨e, refused, fault⟩ := deepPretty deep
    obtain ⟨e', refused', fault'⟩ := deepCompact deep
    rw [display_of_ne_str noString]
    exact ⟨⟨e, refused, by rw [fault]; rfl⟩, ⟨e', refused', by rw [fault']; rfl⟩⟩

/-- That many lists inside each other. -/
def nested : Nat → Json
  | 0 => .null
  | levels + 1 => .arr [nested levels]

theorem isCanonical_nested (levels : Nat) : (nested levels).IsCanonical := by
  induction levels with
  | zero => trivial
  | succ levels ih => exact ⟨ih, trivial⟩

theorem onlyWords_nested (levels : Nat) : (nested levels).OnlyWords := by
  induction levels with
  | zero => exact .null
  | succ levels ih => exact .arr (List.forall_mem_singleton.mpr ih)

theorem depth_nested (levels : Nat) : (nested levels).depth = levels := by
  induction levels with
  | zero => rfl
  | succ levels ih => rw [nested, depth, itemsDepth, itemsDepth, ih, Nat.max_zero]

theorem parse_layout_lists :
    (parse (arr [int (-7), str "\"\n"]).pretty = .ok (arr [int (-7), str "\"\n"]) ∧
      parse (arr [int (-7), str "\"\n"]).display = .ok (arr [int (-7), str "\"\n"])) ∧
    ∃ e, parse (nested 128).display = .error e ∧
      e.fault.message = "recursion limit exceeded" := by
  constructor
  · have canonical : (arr [int (-7), str "\"\n"]).IsCanonical := ⟨trivial, trivial, trivial⟩
    have number : (int (-7)).OnlyWords := .num ⟨by decide, by decide⟩
    have words : (arr [int (-7), str "\"\n"]).OnlyWords :=
      .arr (List.forall_mem_cons.mpr ⟨number, List.forall_mem_singleton.mpr .str⟩)
    have read := (parse_layout canonical words).1 (by decide)
    exact ⟨read.1, read.2 nofun⟩
  · have deep : 127 < (nested 128).depth := by rw [depth_nested]; decide
    exact ((parse_layout (isCanonical_nested 128) (onlyWords_nested 128)).2 deep).2

end Json

end ContractFixture
