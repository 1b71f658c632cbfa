import ContractFixture.Proofs.Json.Settled.Leaves

/-! # Settled documents -/

namespace ContractFixture.Json.Reader

open Text (exists_cons_of_agree eq_nil_of_agree head?_ne_of_agree forall_mem_lt)

variable {α : Type}

/-! ## The first character behind white space -/

def first (missing : ReadFault) (next : Char → List Char → Answer α) : List Char → Answer α
  | [] => stopAt missing []
  | c :: rest => next c rest

theorem settled_of_first {f : List Char → Answer α} (missing : ReadFault)
    (next : Char → List Char → Answer α) (atEnd : missing.isEnd = true)
    (reads : ∀ other, f other = first missing next (skipBlanks other)) {text : List Char}
    (each : ∀ c rest, skipBlanks text = c :: rest → Settled (first missing next) (c :: rest)) :
    Settled f text := by
  apply Settled.skipBlanks _ reads
  cases start : skipBlanks text with
  | nil => exact .ended rfl atEnd rfl
  | cons c rest => exact each c rest start

theorem skipBlanks_skipBlanks (text : List Char) :
    skipBlanks (skipBlanks text) = skipBlanks text :=
  skipBlanks_of_agree (.refl 1 (skipBlanks text))

/-! ## Containers -/

structure Enclosure.Regular (e : Enclosure) : Prop where
  ascii : e.close.toNat < 128
  atEnd : e.atEnd.isEnd = true
  elsewhere : e.elsewhere.isEnd = false

theorem regular_brackets : brackets.Regular := ⟨by decide, rfl, rfl⟩

theorem regular_braces : braces.Regular := ⟨by decide, rfl, rfl⟩

/-- Every answer of the reader is settled, and white space before a piece does not change it. -/
structure SettlesPieces (piece : (text : List Char) → Reading α text) : Prop where
  settled : ∀ text, Settled (fun text => answer (piece text)) text
  skips : ∀ text, answer (piece (skipBlanks text)) = answer (piece text)

def pieces (e : Enclosure) (piece : (text : List Char) → Reading α text) (text : List Char) :
    Answer (List α) :=
  (answer (piece text)).bind fun p =>
    (answer (more e piece p.2)).map fun q => (p.1 :: q.1, q.2)

section

variable {e : Enclosure} {piece : (text : List Char) → Reading α text}

theorem pieces_skipBlanks (settles : SettlesPieces piece) (text : List Char) :
    pieces e piece (skipBlanks text) = pieces e piece text := by
  rw [pieces, settles.skips, pieces]

theorem settled_pieces (settles : SettlesPieces piece) {text : List Char}
    (others : ∀ rest : List Char, rest.length < text.length →
      Settled (fun text => answer (more e piece text)) rest) : Settled (pieces e piece) text := by
  apply (settles.settled text).bind (g := fun x rest =>
    (answer (more e piece rest)).map fun q => (x :: q.1, q.2))
  intro x rest taken
  exact (others rest (length_lt_of_answer taken)).map (x :: ·)

theorem settled_afterComma (regular : e.Regular) (settles : SettlesPieces piece)
    {text : List Char} (others : ∀ rest : List Char, rest.length < text.length →
      Settled (fun text => answer (more e piece text)) rest) :
    Settled (fun text =>
      if (skipBlanks text).head? = some e.close then stopAt .trailingComma (skipBlanks text)
      else pieces e piece text) text := by
  apply Settled.skipBlanks (g := fun text =>
    if text.head? = some e.close then stopAt .trailingComma text else pieces e piece text)
  · by_cases closed : (skipBlanks text).head? = some e.close
    · obtain ⟨rest, start⟩ := List.head?_eq_some_iff.mp closed
      rw [start]
      apply (settled_stopAt .trailingComma rfl e.close rest).congr_of_lt regular.ascii
      exact fun other => if_pos rfl
    · have shorter := length_skipBlanks_le text
      apply (settled_pieces settles fun rest less => others rest (by omega)).congr
      exact fun other agree => if_neg (head?_ne_of_agree regular.ascii agree closed)
  · intro other
    rw [pieces_skipBlanks settles]

theorem settled_more (regular : e.Regular) (settles : SettlesPieces piece) (text : List Char) :
    Settled (fun text => answer (more e piece text)) text := by
  induction length : text.length using Nat.strongRecOn generalizing text with
  | ind n ih =>
    subst length
    apply settled_of_first e.atEnd (fun c rest =>
      if c = e.close then .ok ([], rest)
      else if c = ',' then
        if (skipBlanks rest).head? = some e.close then stopAt .trailingComma (skipBlanks rest)
        else pieces e piece rest
      else stopAt e.elsewhere (c :: rest)) regular.atEnd
    · intro other
      rw [answer_more]
      cases skipBlanks other <;> rfl
    · intro c rest start
      have shorter := length_le_of_skipBlanks start
      rw [List.length_cons] at shorter
      by_cases close : c = e.close
      · subst c
        exact (settled_ok [] rest).cons fun other => if_pos rfl
      · by_cases comma : c = ','
        · subst c
          have others : ∀ after : List Char, after.length < rest.length →
              Settled (fun text => answer (more e piece text)) after :=
            fun after less => ih after.length (by omega) after rfl
          apply (settled_afterComma regular settles others).cons
          intro other
          rw [first, if_neg close, if_pos rfl]
        · refine settled_of_stop e.elsewhere regular.elsewhere fun c' rest' alike => ?_
          have no_close := alike.ne regular.ascii close
          have no_comma := alike.ne (by decide) comma
          rw [first, if_neg no_close, if_neg no_comma]

theorem settled_enclosed (regular : e.Regular) (settles : SettlesPieces piece) (text : List Char) :
    Settled (fun text => answer (enclosed e piece text)) text := by
  apply settled_of_first e.atEnd (fun c rest =>
    if c = e.close then .ok ([], rest) else pieces e piece (c :: rest)) regular.atEnd
  · intro other
    have same := pieces_skipBlanks (e := e) settles other
    rw [answer_enclosed]
    cases start : skipBlanks other with
    | nil => rfl
    | cons c rest =>
      rw [start] at same
      rw [first, same]
      rfl
  · intro c rest _
    by_cases close : c = e.close
    · subst c
      exact (settled_ok [] rest).cons fun other => if_pos rfl
    · apply (settled_pieces settles fun after _ => settled_more regular settles after).congr
      intro other agree
      obtain ⟨c', rest', rfl, alike⟩ := exists_cons_of_agree agree
      exact if_neg (alike.ne regular.ascii close)

end

/-! ## Members -/

theorem settled_colon (text : List Char) : Settled (fun text => answer (colon text)) text := by
  apply settled_of_first .endInObject (fun c rest =>
    if c = ':' then .ok ((), rest) else stopAt .expectedColon (c :: rest)) rfl
  · intro other
    rw [answer_colon]
    cases skipBlanks other <;> rfl
  · intro c rest _
    refine settled_of_expected ':' .endInObject .expectedColon (by decide) rfl rfl ?_ ?_
      (settled_ok ()) (c :: rest)
    · rfl
    · exact fun _ _ => rfl

theorem settled_key (text : List Char) : Settled (fun text => answer (key text)) text := by
  apply settled_of_first .endInValue (fun c rest =>
    if c = '"' then (answer (stringBody rest)).map fun p => (String.ofList p.1, p.2)
    else stopAt .keyNotString (c :: rest)) rfl
  · intro other
    rw [answer_key]
    cases skipBlanks other <;> rfl
  · intro c rest _
    refine settled_of_expected '"' .endInValue .keyNotString (by decide) rfl rfl ?_ ?_
      (fun rest => (settled_stringBody rest).map String.ofList) (c :: rest)
    · rfl
    · exact fun _ _ => rfl

theorem settlesPieces_member {item : (text : List Char) → Reading Json text}
    (settles : SettlesPieces item) : SettlesPieces (member item) where
  settled text := by
    have read := (settled_key text).bind (g := fun name rest =>
      (answer (colon rest)).bind fun p => (answer (item p.2)).map fun q => ((name, q.1), q.2))
    apply Settled.congr (read ?_) fun other _ => answer_member item other
    intro name rest _
    apply (settled_colon rest).bind (g := fun _ rest =>
      (answer (item rest)).map fun q => ((name, q.1), q.2))
    exact fun _ rest _ => (settles.settled rest).map (name, ·)
  skips text := by
    rw [answer_member, answer_member, answer_key, answer_key, skipBlanks_skipBlanks]

/-! ## Values -/

theorem settled_container {item : (text : List Char) → Reading Json text}
    (settles : SettlesPieces item) (c : Char) (rest : List Char) :
    Settled (first .endInValue fun c rest => answer (container (some item) c rest))
      (c :: rest) := by
  by_cases list : c = '['
  · have items := (settled_enclosed regular_brackets settles rest).map Json.arr
    apply items.cons
    intro other
    rw [first, answer_container, if_pos list]
  · have members :=
      (settled_enclosed regular_braces (settlesPieces_member settles) rest).map Json.obj
    apply members.cons
    intro other
    rw [first, answer_container, if_neg list]

def startsValue (c : Char) : Bool :=
  c = 'n' || c = 't' || c = 'f' || c = '-' || c.isDigit || c = '"' || c = '[' || c = '{'

theorem startsValue_iff {c : Char} :
    startsValue c = true ↔ c = 'n' ∨ c = 't' ∨ c = 'f' ∨ (c = '-' ∨ c.isDigit = true) ∨
      c = '"' ∨ (c = '[' ∨ c = '{') := by
  simp [startsValue, or_assoc]

theorem lt_of_startsValue (c : Char) (h : startsValue c = true) : c.toNat < 128 := by
  rcases startsValue_iff.mp h with rfl | rfl | rfl | (rfl | digit) | rfl | (rfl | rfl)
  any_goals decide
  exact lt_of_isDigit c digit

section

variable {item : Option ((text : List Char) → Reading Json text)}

theorem valueFrom_of_opening {c : Char} (opens : c = '[' ∨ c = '{') (rest : List Char) :
    answer (valueFrom item c rest) = answer (container item c rest) := by
  rcases opens with rfl | rfl <;> rfl

theorem valueFrom_of_no_start {c : Char} (h : startsValue c = false) (rest : List Char) :
    answer (valueFrom item c rest) = stopAt .expectedValue (c :: rest) := by
  have none := mt startsValue_iff.mpr (Bool.eq_false_iff.mp h)
  simp only [not_or] at none
  obtain ⟨n, t, f, numeric, quote, opens⟩ := none
  rw [answer_valueFrom, if_neg n, if_neg t, if_neg f, if_neg (not_or.mpr numeric), if_neg quote,
    if_neg (not_or.mpr opens)]

theorem settled_valueFrom (settles : ∀ read ∈ item, SettlesPieces read) (c : Char)
    (rest : List Char) :
    Settled (first .endInValue fun c rest => answer (valueFrom item c rest)) (c :: rest) := by
  by_cases starts : startsValue c = true
  · have ascii := lt_of_startsValue c starts
    rcases startsValue_iff.mp starts with rfl | rfl | rfl | numeric | rfl | opens
    · exact (settled_word .null (forall_mem_lt rfl) _).congr_of_lt ascii fun _ => rfl
    · exact (settled_word (.bool true) (forall_mem_lt rfl) _).congr_of_lt ascii fun _ => rfl
    · exact (settled_word (.bool false) (forall_mem_lt rfl) _).congr_of_lt ascii fun _ => rfl
    · exact (settled_number (c :: rest)).congr_of_lt ascii (valueFrom_of_numeral item numeric)
    · have body := (settled_stringBody rest).map fun cs => Json.str (String.ofList cs)
      exact body.cons (answer_valueFrom item '"')
    · have goes := @valueFrom_of_opening item c opens
      cases item with
      | none => exact (settled_stopAt .tooDeep rfl c rest).congr_of_lt ascii goes
      | some read => exact (settled_container (settles read rfl) c rest).congr_of_lt ascii goes
  · refine settled_of_stop .expectedValue rfl fun c' rest' alike => ?_
    have same := alike.apply_eq lt_of_startsValue
    exact valueFrom_of_no_start (same.trans (Bool.eq_false_iff.mpr starts)) rest'

theorem settlesPieces_valueAfterBlanks (settles : ∀ read ∈ item, SettlesPieces read) :
    SettlesPieces (valueAfterBlanks item) where
  settled text := by
    apply settled_of_first .endInValue (fun c rest => answer (valueFrom item c rest)) rfl
    · intro other
      rw [answer_valueAfterBlanks]
      cases skipBlanks other <;> rfl
    · exact fun c rest _ => settled_valueFrom settles c rest
  skips text := by
    rw [answer_valueAfterBlanks, answer_valueAfterBlanks, skipBlanks_skipBlanks]

end

theorem settlesPieces_value (n : Nat) : SettlesPieces (value n) := by
  induction n with
  | zero => exact settlesPieces_valueAfterBlanks nofun
  | succ n ih =>
    apply settlesPieces_valueAfterBlanks
    rintro read ⟨⟩
    exact ih

/-! ## Documents -/

def nothingBehind (v : Json) : List Char → Answer Json
  | [] => .ok (v, [])
  | c :: rest => stopAt .trailingCharacters (c :: rest)

def documentAnswer (n : Nat) (text : List Char) : Answer Json :=
  (answer (value n text)).bind fun p => nothingBehind p.1 (skipBlanks p.2)

theorem readChars_eq_error_iff {n : Nat} {text : List Char} {stop : Stop} :
    readChars n text = .error stop ↔ documentAnswer n text = .error stop := by
  rw [readChars_eq, documentAnswer]
  have same : ∀ (o : Except Stop Json) (o' : Answer Json), o = o'.map (·.1) →
      (o = .error stop ↔ o' = .error stop) := by
    rintro _ o' rfl
    cases o' with
    | error stop' => simp [Except.map]
    | ok p => simp [Except.map]
  apply same
  cases answer (value n text) with
  | error stop' => rfl
  | ok p =>
    dsimp only [Except.bind]
    cases skipBlanks p.2 <;> rfl

theorem settled_documentAnswer (n : Nat) (text : List Char) : Settled (documentAnswer n) text := by
  apply ((settlesPieces_value n).settled text).bind (g := fun v rest =>
    nothingBehind v (skipBlanks rest))
  intro v rest _
  apply Settled.skipBlanks (g := nothingBehind v) _ fun _ => rfl
  cases skipBlanks rest with
  | nil =>
    apply (settled_ok v []).congr
    intro other agree
    rw [eq_nil_of_agree Nat.one_pos agree]
    rfl
  | cons c rest => exact settled_of_stop .trailingCharacters rfl fun _ _ _ => rfl

end ContractFixture.Json.Reader
