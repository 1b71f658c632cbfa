import ContractFixture.Proofs.Json.Numerals
import ContractFixture.Proofs.Json.Strings

/-!
# Values and documents

From the reader for what stands inside a container comes the one for the container, so the law for
all values is an induction on the allowance.
-/

namespace ContractFixture.Json.Reader

open Grammar
open Text (Taken)

variable {α : Type}

/-! ## Members -/

theorem answer_colon (text : List Char) :
    answer (colon text) =
      match skipBlanks text with
      | [] => stopAt .endInObject []
      | c :: rest => if c = ':' then .ok ((), rest) else stopAt .expectedColon (c :: rest) := by
  unfold colon
  split
  · rename_i start
    rw [start]
    rfl
  · rename_i c rest start
    simp only [start]
    split <;> rfl

theorem answer_colon_eq_ok_iff {text rest : List Char} :
    answer (colon text) = .ok ((), rest) ↔ ∃ blank, Blank blank ∧ text = blank ++ ':' :: rest := by
  rw [answer_colon]
  constructor
  · intro h
    split at h
    · cases h
    · rename_i c after start
      split at h
      · subst c
        cases h
        exact exists_blank_of_skipBlanks start
      · cases h
  · rintro ⟨blank, white, rfl⟩
    rw [skipBlanks_append white, skipBlanks_cons (by rfl)]
    rfl

theorem answer_key (text : List Char) :
    answer (key text) =
      match skipBlanks text with
      | [] => stopAt .endInValue []
      | c :: rest =>
        if c = '"' then
          (answer (stringBody rest)).map fun (cs, rest) => (String.ofList cs, rest)
        else stopAt .keyNotString (c :: rest) := by
  unfold key
  split
  · rename_i start
    rw [start]
    rfl
  · rename_i c rest start
    simp only [start]
    split
    · cases stringBody rest <;> rfl
    · rfl

theorem answer_key_eq_ok_iff {text rest : List Char} {name : String} :
    answer (key text) = .ok (name, rest) ↔
      ∃ front, Spaced Quoted front name ∧ text = front ++ rest := by
  rw [answer_key]
  constructor
  · intro h
    split at h
    · cases h
    · rename_i c after start
      obtain ⟨blank, white, rfl⟩ := exists_blank_of_skipBlanks start
      split at h
      · subst c
        obtain ⟨⟨cs, rest'⟩, read, h⟩ := map_eq_ok h
        cases h
        obtain ⟨front, isBody, rfl⟩ := answer_stringBody_eq_ok_iff.mp read
        exact ⟨_, .mk white (.mk isBody), by simp⟩
      · cases h
  · rintro ⟨front, ⟨white, ⟨isBody⟩⟩, rfl⟩
    simp only [List.append_assoc, List.cons_append]
    rw [skipBlanks_append white, skipBlanks_cons (by rfl)]
    simp only [if_true, stringBody_complete isBody]
    rfl

theorem answer_member (item : (text : List Char) → Reading Json text) (text : List Char) :
    answer (member item text) =
      (answer (key text)).bind fun (name, rest) =>
        (answer (colon rest)).bind fun (_, rest) =>
          (answer (item rest)).map fun (value, rest) => ((name, value), rest) := by
  unfold member
  cases key text with
  | error stop => rfl
  | ok name =>
    dsimp only [answer, Except.map, Except.bind]
    cases colon name.rest with
    | error stop => rfl
    | ok mark =>
      dsimp only
      cases item mark.rest <;> rfl

theorem reads_member {n : Nat} {depthOf : Json → Nat} {P : List Char → Json → Prop}
    {item : (text : List Char) → Reading Json text} (reads : Reads n depthOf P item) :
    Reads n (depthOf ·.2) (Member P) (member item) := by
  constructor
  · intro text rest entry h
    rw [answer_member] at h
    obtain ⟨⟨name, afterKey⟩, named, h⟩ := bind_eq_ok h
    obtain ⟨⟨⟨⟩, afterColon⟩, marked, h⟩ := bind_eq_ok h
    obtain ⟨⟨value, rest'⟩, inner, h⟩ := map_eq_ok h
    cases h
    obtain ⟨front, isKey, rfl⟩ := answer_key_eq_ok_iff.mp named
    obtain ⟨blank, white, rfl⟩ := answer_colon_eq_ok_iff.mp marked
    obtain ⟨front', isValue, within, rfl⟩ := reads.sound inner
    exact ⟨_, .mk isKey white isValue, within, by simp⟩
  · intro front rest entry h unextended
    cases h with
    | @mk key blank text name value named white inner =>
      have read : answer (Reader.key (key ++ (blank ++ ':' :: (text ++ rest)))) =
          .ok (name, blank ++ ':' :: (text ++ rest)) :=
        answer_key_eq_ok_iff.mpr ⟨key, named, rfl⟩
      have marked : answer (colon (blank ++ ':' :: (text ++ rest))) = .ok ((), text ++ rest) :=
        answer_colon_eq_ok_iff.mpr ⟨blank, white, rfl⟩
      have parts : key ++ blank ++ ':' :: text ++ rest =
          key ++ (blank ++ ':' :: (text ++ rest)) := by simp
      rw [parts, answer_member, read]
      simp only [Except.bind, marked]
      exact (reads.complete inner unextended).map (name, ·)

/-! ## The first character -/

theorem exists_cons_of_numeral {text : List Char} {n : ContractFixture.Numeral}
    (h : Grammar.Numeral text n) : ∃ c rest, text = c :: rest ∧ (c = '-' ∨ c.isDigit = true) := by
  obtain ⟨signed, isWhole, -, -⟩ := h
  cases signed with
  | minus => exact ⟨_, _, rfl, Or.inl rfl⟩
  | absent =>
    cases isWhole with
    | zero => exact ⟨_, _, rfl, Or.inr rfl⟩
    | digits digit => exact ⟨_, _, rfl, Or.inr digit⟩

theorem exists_cons_of_value {text : List Char} {v : Json} (h : Value text v) :
    ∃ c rest, text = c :: rest ∧ isBlank c = false ∧ c ≠ ']' ∧ c ≠ '}' := by
  cases h with
  | null => exact ⟨_, _, rfl, by decide⟩
  | true => exact ⟨_, _, rfl, by decide⟩
  | false => exact ⟨_, _, rfl, by decide⟩
  | num written =>
    obtain ⟨c, rest, rfl, start⟩ := exists_cons_of_numeral written
    refine ⟨c, rest, rfl, ?_, ?_, ?_⟩
    · rw [Bool.eq_false_iff, Ne, isBlank_iff]
      rintro (rfl | rfl | rfl | rfl) <;> exact absurd start (by decide)
    · rintro rfl
      exact absurd start (by decide)
    · rintro rfl
      exact absurd start (by decide)
  | str h =>
    cases h with
    | mk => exact ⟨_, _, rfl, by decide⟩
  | arr => exact ⟨_, _, rfl, by decide⟩
  | obj => exact ⟨_, _, rfl, by decide⟩

theorem opens_value : Opens ']' (Spaced Value) := by
  rintro _ rest v ⟨white, inner⟩
  obtain ⟨c, behind, rfl, start, apart, -⟩ := exists_cons_of_value inner
  rw [List.append_assoc, skipBlanks_append white, List.cons_append, skipBlanks_cons start]
  exact ⟨c, _, rfl, apart⟩

theorem opens_member {P : List Char → α → Prop} : Opens '}' (Member P) := by
  rintro _ rest _ ⟨⟨white, ⟨-⟩⟩, -, -⟩
  simp only [List.append_assoc, List.cons_append]
  rw [skipBlanks_append white, skipBlanks_cons (by rfl)]
  exact ⟨_, _, rfl, by decide⟩

/-! ## Values -/

theorem itemsDepth_eq (items : List Json) : itemsDepth items = deepest depth items := by
  induction items with
  | nil => rfl
  | cons item rest ih => simp only [itemsDepth, deepest, List.foldr_cons] at ih ⊢; rw [ih]

theorem membersDepth_eq (members : List (String × Json)) :
    membersDepth members = deepest (depth ·.2) members := by
  induction members with
  | nil => rfl
  | cons entry rest ih => simp only [membersDepth, deepest, List.foldr_cons] at ih ⊢; rw [ih]

theorem answer_valueAfterBlanks (item : Option ((text : List Char) → Reading Json text))
    (text : List Char) :
    answer (valueAfterBlanks item text) =
      match skipBlanks text with
      | [] => stopAt .endInValue []
      | c :: rest => answer (valueFrom item c rest) := by
  unfold valueAfterBlanks
  split
  · rename_i start
    rw [start]
    rfl
  · rename_i c rest start
    simp only [start]
    cases valueFrom item c rest <;> rfl

theorem answer_valueFrom (item : Option ((text : List Char) → Reading Json text)) (c : Char)
    (rest : List Char) :
    answer (valueFrom item c rest) =
      if c = 'n' then answer (word .null 'n' ['u', 'l', 'l'] (c :: rest))
      else if c = 't' then answer (word (.bool true) 't' ['r', 'u', 'e'] (c :: rest))
      else if c = 'f' then answer (word (.bool false) 'f' ['a', 'l', 's', 'e'] (c :: rest))
      else if c = '-' ∨ c.isDigit then answer (number (c :: rest))
      else if c = '"' then
        (answer (stringBody rest)).map fun (cs, rest) => (.str (String.ofList cs), rest)
      else if c = '[' ∨ c = '{' then answer (container item c rest)
      else stopAt .expectedValue (c :: rest) := by
  simp only [valueFrom, apply_ite answer]
  cases stringBody rest <;> rfl

theorem answer_container (item : (text : List Char) → Reading Json text) (c : Char)
    (rest : List Char) :
    answer (container (some item) c rest) =
      if c = '[' then
        (answer (enclosed brackets item rest)).map fun (items, rest) => (.arr items, rest)
      else
        (answer (enclosed braces (member item) rest)).map fun (members, rest) =>
          (.obj members, rest) := by
  simp only [container, apply_ite answer]
  congr 1
  · cases enclosed brackets item rest <;> rfl
  · cases enclosed braces (member item) rest <;> rfl

structure ReadsContainers (n : Nat)
    (item : Option ((text : List Char) → Reading Json text)) : Prop where
  sound : ∀ {c : Char} {text rest : List Char} {v : Json}, c = '[' ∨ c = '{' →
    answer (container item c text) = .ok (v, rest) →
    ∃ front, Value (c :: front) v ∧ v.depth ≤ n ∧ text = front ++ rest
  list : ∀ {front rest : List Char} {items : List Json}, Enclosed ']' (Spaced Value) front items →
    Unextended rest → TakenWithin n (itemsDepth items + 1) (.arr items) rest
      (answer (container item '[' (front ++ rest)))
  object : ∀ {front rest : List Char} {members : List (String × Json)},
    Enclosed '}' (Member (Spaced Value)) front members → Unextended rest →
    TakenWithin n (membersDepth members + 1) (.obj members) rest
      (answer (container item '{' (front ++ rest)))

theorem readsContainers_none : ReadsContainers 0 none where
  sound _ h := nomatch h
  list _ _ := ⟨nofun, fun _ => ⟨_, rfl, rfl⟩⟩
  object _ _ := ⟨nofun, fun _ => ⟨_, rfl, rfl⟩⟩

theorem readsContainers_some {n : Nat} {item : (text : List Char) → Reading Json text}
    (reads : Reads n depth (Spaced Value) item) : ReadsContainers (n + 1) (some item) := by
  have items := reads_enclosed (e := brackets) (Or.inl rfl) reads opens_value
  have members := reads_enclosed (e := braces) (Or.inr rfl) (reads_member reads) opens_member
  constructor
  · intro c text rest v opening h
    rw [answer_container] at h
    split at h
    · subst c
      obtain ⟨⟨list, rest'⟩, taken, h⟩ := map_eq_ok h
      cases h
      obtain ⟨front, isList, within, rfl⟩ := items.sound taken
      rw [← itemsDepth_eq] at within
      exact ⟨front, .arr isList, Nat.succ_le_succ within, rfl⟩
    · rename_i noBracket
      obtain rfl := opening.resolve_left noBracket
      obtain ⟨⟨list, rest'⟩, taken, h⟩ := map_eq_ok h
      cases h
      obtain ⟨front, isObject, within, rfl⟩ := members.sound taken
      rw [← membersDepth_eq] at within
      exact ⟨front, .obj isObject, Nat.succ_le_succ within, rfl⟩
  · intro front rest list isList unextended
    rw [answer_container, itemsDepth_eq]
    exact ((items.complete isList unextended).map Json.arr).succ
  · intro front rest list isObject unextended
    rw [answer_container, membersDepth_eq]
    exact ((members.complete isObject unextended).map Json.obj).succ

theorem valueFrom_sound {n : Nat} {item : Option ((text : List Char) → Reading Json text)}
    (containers : ReadsContainers n item) {c : Char} {text rest : List Char} {v : Json}
    (h : answer (valueFrom item c text) = .ok (v, rest)) :
    ∃ front, Value front v ∧ v.depth ≤ n ∧ c :: text = front ++ rest := by
  rw [answer_valueFrom] at h
  split at h
  · obtain ⟨rfl, parts⟩ := answer_word_eq_ok_iff.mp h
    exact ⟨_, .null, Nat.zero_le n, parts⟩
  split at h
  · obtain ⟨rfl, parts⟩ := answer_word_eq_ok_iff.mp h
    exact ⟨_, .true, Nat.zero_le n, parts⟩
  split at h
  · obtain ⟨rfl, parts⟩ := answer_word_eq_ok_iff.mp h
    exact ⟨_, .false, Nat.zero_le n, parts⟩
  split at h
  · obtain ⟨front, numeral, x, written, denoted, rfl, parts⟩ := number_sound h
    exact ⟨front, .num written denoted, Nat.zero_le n, parts⟩
  split at h
  · subst c
    obtain ⟨⟨cs, rest'⟩, body, h⟩ := map_eq_ok h
    cases h
    obtain ⟨front, isBody, rfl⟩ := answer_stringBody_eq_ok_iff.mp body
    exact ⟨_, .str (.mk isBody), Nat.zero_le n, by simp⟩
  split at h
  · rename_i opening
    obtain ⟨front, isValue, within, rfl⟩ := containers.sound opening h
    exact ⟨_, isValue, within, rfl⟩
  · cases h

theorem valueFrom_of_numeral (item : Option ((text : List Char) → Reading Json text)) {c : Char}
    (start : c = '-' ∨ c.isDigit = true) (rest : List Char) :
    answer (valueFrom item c rest) = answer (number (c :: rest)) := by
  have other : ∀ d, d.isDigit = false → d ≠ '-' → c ≠ d := by
    rintro d noDigit noMinus rfl
    rcases start with isMinus | isDigit
    · exact noMinus isMinus
    · exact Bool.false_ne_true (noDigit.symm.trans isDigit)
  rw [answer_valueFrom, if_neg (other 'n' rfl (by decide)), if_neg (other 't' rfl (by decide)),
    if_neg (other 'f' rfl (by decide)), if_pos start]

theorem valueFrom_complete {n : Nat} {item : Option ((text : List Char) → Reading Json text)}
    (containers : ReadsContainers n item) {c : Char} {front rest : List Char} {v : Json}
    (h : Value (c :: front) v) (unextended : Unextended rest) :
    TakenWithin n v.depth v rest (answer (valueFrom item c (front ++ rest))) := by
  generalize whole : c :: front = text at h
  cases h with
  | null =>
    cases whole
    rw [answer_valueFrom, if_pos rfl]
    exact .of_eq (answer_word_eq_ok_iff.mpr ⟨rfl, rfl⟩)
  | true =>
    cases whole
    rw [answer_valueFrom, if_neg (by decide), if_pos rfl]
    exact .of_eq (answer_word_eq_ok_iff.mpr ⟨rfl, rfl⟩)
  | false =>
    cases whole
    rw [answer_valueFrom, if_neg (by decide), if_neg (by decide), if_pos rfl]
    exact .of_eq (answer_word_eq_ok_iff.mpr ⟨rfl, rfl⟩)
  | num written denoted =>
    subst whole
    obtain ⟨_, _, start, isNumber⟩ := exists_cons_of_numeral written
    cases start
    rw [valueFrom_of_numeral item isNumber]
    exact .of_eq (number_complete written denoted unextended)
  | str h =>
    obtain @⟨body, cs, isBody⟩ := h
    obtain ⟨rfl, rfl⟩ : c = '"' ∧ front = body ++ ['"'] := by simpa using whole
    rw [List.append_assoc, answer_valueFrom, if_neg (by decide), if_neg (by decide),
      if_neg (by decide), if_neg (by decide), if_pos rfl, List.singleton_append,
      stringBody_complete isBody]
    exact .of_eq rfl
  | arr isList =>
    cases whole
    exact containers.list isList unextended
  | obj isObject =>
    cases whole
    exact containers.object isObject unextended

theorem reads_valueAfterBlanks {n : Nat}
    {item : Option ((text : List Char) → Reading Json text)}
    (containers : ReadsContainers n item) :
    Reads n depth (Spaced Value) (valueAfterBlanks item) := by
  constructor
  · intro text rest v h
    rw [answer_valueAfterBlanks] at h
    split at h
    · cases h
    · rename_i c after start
      obtain ⟨blank, white, rfl⟩ := exists_blank_of_skipBlanks start
      obtain ⟨front, isValue, within, parts⟩ := valueFrom_sound containers h
      exact ⟨_, .mk white isValue, within, by rw [parts, List.append_assoc]⟩
  · rintro _ rest v ⟨white, isValue⟩ unextended
    obtain ⟨c, front, rfl, start, -⟩ := exists_cons_of_value isValue
    rw [List.append_assoc, answer_valueAfterBlanks, skipBlanks_append white, List.cons_append,
      skipBlanks_cons start]
    exact valueFrom_complete containers isValue unextended

/-- Of the values, those are taken that nest at most as many containers as are allowed. -/
theorem reads_value (n : Nat) : Reads n depth (Spaced Value) (value n) := by
  induction n with
  | zero => exact reads_valueAfterBlanks readsContainers_none
  | succ n ih => exact reads_valueAfterBlanks (readsContainers_some ih)

/-! ## Documents -/

theorem readChars_eq (n : Nat) (text : List Char) :
    readChars n text =
      (answer (value n text)).bind fun (v, rest) =>
        match skipBlanks rest with
        | [] => .ok v
        | rest => stopAt .trailingCharacters rest := by
  unfold readChars
  cases value n text <;> rfl

theorem readChars_eq_ok_iff {n : Nat} {text : List Char} {v : Json} :
    readChars n text = .ok v ↔ Document text v ∧ v.depth ≤ n := by
  rw [readChars_eq]
  constructor
  · intro h
    obtain ⟨⟨v', rest⟩, taken, behind⟩ := bind_eq_ok h
    obtain ⟨front, isValue, within, parts⟩ := (reads_value n).sound taken
    subst parts
    dsimp only at behind
    split at behind
    · rename_i atEnd
      cases behind
      obtain ⟨blank, white, rfl⟩ := exists_blank_of_skipBlanks atEnd
      exact ⟨.mk isValue (by simpa using white), within⟩
    · cases behind
  · rintro ⟨⟨isValue, white⟩, within⟩
    rw [((reads_value n).complete isValue (unextended_of_blank white)).taken within]
    simp only [Except.bind, skipBlanks_of_blank white]

theorem document_unique {text : List Char} {v w : Json} (h : Document text v)
    (h' : Document text w) : v = w := by
  have read : readChars (max v.depth w.depth) text = .ok v :=
    readChars_eq_ok_iff.mpr ⟨h, Nat.le_max_left ..⟩
  have read' : readChars (max v.depth w.depth) text = .ok w :=
    readChars_eq_ok_iff.mpr ⟨h', Nat.le_max_right ..⟩
  rw [read] at read'
  exact Except.ok.inj read'

theorem readChars_of_deep {n : Nat} {text : List Char} {v : Json} (h : Document text v)
    (deep : n < v.depth) : ∃ stop, readChars n text = .error stop ∧ stop.fault = .tooDeep := by
  obtain ⟨isValue, white⟩ := h
  obtain ⟨stop, refused, fault⟩ :=
    ((reads_value n).complete isValue (unextended_of_blank white)).refused deep
  rw [readChars_eq, refused]
  exact ⟨stop, rfl, fault⟩

end ContractFixture.Json.Reader
