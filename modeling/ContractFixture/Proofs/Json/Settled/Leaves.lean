import ContractFixture.Proofs.Json.Settled.Basic

/-! # Settled numbers and strings -/

namespace ContractFixture.Json.Reader

open Text (Agree exists_cons_of_agree eq_nil_of_agree exists_append_of_agree head?_ne_of_agree
  byteSize_le_of_agree forall_mem_lt utf8Size_of_lt)
open Grammar (CodeUnit HexDigit hexDigits hexCapitals)

variable {α : Type}

/-! ## Numbers -/

theorem lt_of_isDigit (c : Char) (h : c.isDigit = true) : c.toNat < 128 :=
  Nat.lt_of_le_of_lt (Char.isDigit_iff_toNat.mp h).2 (by decide)

theorem noDigit_of_agree {text other : List Char} (h : Agree 1 text other)
    (stop : NoDigit text) : NoDigit other := by
  cases text with
  | nil => rwa [eq_nil_of_agree Nat.one_pos h]
  | cons c text =>
    obtain ⟨c', rest, rfl, alike⟩ := exists_cons_of_agree h
    intro d first
    obtain rfl := Option.some.inj first
    exact (alike.apply_eq lt_of_isDigit).trans (stop c rfl)

theorem digits_of_noDigit {text : List Char} (stop : NoDigit text) :
    digits text = [] ∧ afterDigits text = text := by
  have none : ∀ c ∈ [], Char.isDigit c = true := fun _ member => absurd member List.not_mem_nil
  exact digits_append none stop

theorem settled_someDigits (text : List Char) : Settled someDigits text := by
  obtain ⟨all, split, stop⟩ := digits_split text
  cases text with
  | nil => exact .ended rfl rfl rfl
  | cons c text =>
    by_cases digit : c.isDigit = true
    · refine .took (digits (c :: text)) (digits (c :: text)) split fun other agree => ?_
      have some : digits (c :: text) ≠ [] := by
        rw [digits, List.takeWhile_cons_of_pos digit]
        exact List.cons_ne_nil _ _
      exact someDigits_eq_ok_iff.mpr ⟨⟨some, all⟩, rfl, noDigit_of_agree agree stop⟩
    · refine settled_of_stop .invalidNumber rfl fun c' rest alike => ?_
      have no_digit : ¬ c'.isDigit = true := by rwa [alike.apply_eq lt_of_isDigit]
      simp only [someDigits, digits, List.takeWhile_cons_of_neg no_digit]

theorem settled_whole (text : List Char) : Settled (fun text => answer (whole text)) text := by
  cases text with
  | nil => exact .ended rfl rfl rfl
  | cons c text =>
    obtain ⟨all, split, stop⟩ := digits_split text
    by_cases zero : c = '0'
    · subst c
      cases found : digits text with
      | nil =>
        rw [found, List.nil_append] at split
        rw [← split] at stop
        refine .took ['0'] ['0'] rfl fun other agree => ?_
        have none := (digits_of_noDigit (noDigit_of_agree agree stop)).1
        rw [List.singleton_append, answer_whole_cons, if_pos rfl, none]
      | cons d ds =>
        -- The digit behind the zero is not taken.
        rw [found, List.cons_append] at split
        have digit := all d (found ▸ List.mem_cons_self ..)
        rw [split]
        apply (settled_stopAt .invalidNumber rfl d _).behind ['0']
        intro other agree
        obtain ⟨d', rest, rfl, alike⟩ := exists_cons_of_agree agree
        have digit' : d'.isDigit = true := (alike.apply_eq lt_of_isDigit).trans digit
        rw [List.singleton_append, answer_whole_cons, if_pos rfl, digits,
          List.takeWhile_cons_of_pos digit']
    · by_cases digit : c.isDigit = true
      · have parts : c :: text = (c :: digits text) ++ afterDigits text := congrArg (c :: ·) split
        refine .took (c :: digits text) (c :: digits text) parts fun other agree => ?_
        obtain ⟨taken, left⟩ := digits_append all (noDigit_of_agree agree stop)
        rw [List.cons_append, answer_whole_cons, if_neg zero, if_pos digit, taken, left]
      · refine settled_of_stop .invalidNumber rfl fun c' rest alike => ?_
        have no_zero := alike.ne (by decide) zero
        have no_digit : ¬ c'.isDigit = true := by rwa [alike.apply_eq lt_of_isDigit]
        rw [answer_whole_cons, if_neg no_zero, if_neg no_digit]

theorem fraction_of_no_point {text : List Char} (h : text.head? ≠ some '.') :
    fraction text = .ok (none, text) := by
  unfold fraction
  split
  · exact absurd rfl h
  · rfl

theorem settled_fraction (text : List Char) : Settled fraction text := by
  by_cases point : text.head? = some '.'
  · obtain ⟨text, rfl⟩ := List.head?_eq_some_iff.mp point
    apply ((settled_someDigits text).map some).cons
    intro other
    simp only [fraction]
    cases someDigits other <;> rfl
  · apply (settled_ok none text).congr
    intro other agree
    exact fraction_of_no_point (head?_ne_of_agree (by decide) agree point)

theorem exponentSign_of_no_sign {text : List Char} (no_plus : text.head? ≠ some '+')
    (no_minus : text.head? ≠ some '-') : exponentSign text = (false, text) := by
  unfold exponentSign
  split
  · exact absurd rfl no_plus
  · exact absurd rfl no_minus
  · rfl

def signedDigits (text : List Char) : Answer (Option NumeralExponent) :=
  (someDigits (exponentSign text).2).map fun p => (some ⟨(exponentSign text).1, p.1⟩, p.2)

theorem settled_signedDigits (text : List Char) : Settled signedDigits text := by
  have unsigned : ∀ negative text, Settled (fun text => (someDigits text).map fun p =>
      (some (⟨negative, p.1⟩ : NumeralExponent), p.2)) text :=
    fun negative text => (settled_someDigits text).map (some <| NumeralExponent.mk negative ·)
  by_cases plus : text.head? = some '+'
  · obtain ⟨text, rfl⟩ := List.head?_eq_some_iff.mp plus
    exact (unsigned false text).cons fun other => rfl
  · by_cases minus : text.head? = some '-'
    · obtain ⟨text, rfl⟩ := List.head?_eq_some_iff.mp minus
      exact (unsigned true text).cons fun other => rfl
    · apply (unsigned false text).congr
      intro other agree
      have no_plus := head?_ne_of_agree (by decide) agree plus
      have no_minus := head?_ne_of_agree (by decide) agree minus
      rw [signedDigits, exponentSign_of_no_sign no_plus no_minus]

theorem settled_exponent (text : List Char) : Settled exponent text := by
  cases text with
  | nil =>
    apply (settled_ok none []).congr
    intro other agree
    rw [eq_nil_of_agree Nat.one_pos agree]
    rfl
  | cons c text =>
    by_cases letter : c = 'e' ∨ c = 'E'
    · exact (settled_signedDigits text).cons fun other => exponent_cons letter other
    · obtain ⟨no_small, no_capital⟩ := not_or.mp letter
      apply (settled_ok none (c :: text)).congr
      intro other agree
      obtain ⟨c', rest, rfl, alike⟩ := exists_cons_of_agree agree
      have no_letter := not_or.mpr ⟨alike.ne (by decide) no_small, alike.ne (by decide) no_capital⟩
      simp only [exponent, if_neg no_letter]

theorem sign_of_no_minus {text : List Char} (h : text.head? ≠ some '-') :
    sign text = (false, text) := by
  unfold sign
  split
  · exact absurd rfl h
  · rfl

theorem settled_numeral (text : List Char) :
    Settled (fun text => answer (numeral text)) text := by
  have unsigned : ∀ negative text, Settled (fun text =>
      (answer (whole text)).bind fun w => (fraction w.2).bind fun f =>
        (exponent f.2).map fun e => ((⟨negative, w.1, f.1, e.1⟩ : Numeral), e.2)) text := by
    intro negative text
    apply (settled_whole text).bind (g := fun w rest => (fraction rest).bind fun f =>
      (exponent f.2).map fun e => ((⟨negative, w, f.1, e.1⟩ : Numeral), e.2))
    intro w rest _
    apply (settled_fraction rest).bind (g := fun f rest => (exponent rest).map fun e =>
      ((⟨negative, w, f, e.1⟩ : Numeral), e.2))
    intro f rest _
    exact (settled_exponent rest).map _
  by_cases minus : text.head? = some '-'
  · obtain ⟨text, rfl⟩ := List.head?_eq_some_iff.mp minus
    exact (unsigned true text).cons fun other => answer_numeral ('-' :: other)
  · apply (unsigned false text).congr
    intro other agree
    rw [answer_numeral, sign_of_no_minus (head?_ne_of_agree (by decide) agree minus)]

def denoted (n : Numeral) (rest : List Char) : Answer Json :=
  match n.number? with
  | some x => .ok (.num x, rest)
  | none => stopBefore .numberOutOfRange (n.unread ++ rest)

theorem settled_denoted (n : Numeral) (rest : List Char) : Settled (denoted n) rest := by
  cases found : n.number? with
  | some x =>
    apply (settled_ok (.num x) rest).congr
    intro other _
    rw [denoted, found]
  | none => exact .tooLarge (by rw [denoted, found]; rfl) rfl

theorem settled_number (text : List Char) : Settled (fun text => answer (number text)) text := by
  have read := (settled_numeral text).bind fun n rest _ => settled_denoted n rest
  exact read.congr fun other _ => answer_number other

/-! ## Strings -/

theorem answer_noCodeUnit {text : List Char} (rest : List Char) :
    answer (noCodeUnit rest : Reading α text) = noCodeUnit rest := by
  unfold noCodeUnit
  split <;> rfl

theorem answer_codeUnit_of_refused {text : List Char}
    (refused : ∀ p, answer (codeUnit text) ≠ .ok p) : answer (codeUnit text) = noCodeUnit text := by
  unfold codeUnit at refused ⊢
  split
  · split
    · rename_i value found
      simp only [found] at refused
      exact absurd rfl (refused _)
    · exact answer_noCodeUnit _
  · exact answer_noCodeUnit _

theorem toNat_lt_of_hexDigit {c : Char} {value : Nat} (h : HexDigit c value) : c.toNat < 128 := by
  have digits : ∀ c ∈ hexDigits, c.toNat < 128 := forall_mem_lt rfl
  have capitals : ∀ c ∈ hexCapitals, c.toNat < 128 := forall_mem_lt rfl
  rcases h with h | h
  · exact digits c (List.mem_of_getElem? h)
  · exact capitals c (List.mem_of_getElem? h)

theorem byteSize_of_codeUnit {front : List Char} {unit : Nat} (h : CodeUnit front unit) :
    byteSize front = 4 := by
  cases h with
  | mk first second third fourth =>
    simp only [byteSize, utf8Size_of_lt (toNat_lt_of_hexDigit first),
      utf8Size_of_lt (toNat_lt_of_hexDigit second), utf8Size_of_lt (toNat_lt_of_hexDigit third),
      utf8Size_of_lt (toNat_lt_of_hexDigit fourth)]

theorem codeUnit_refused_of_agree {text other : List Char} (agree : Agree 4 text other)
    (refused : ∀ p, answer (codeUnit text) ≠ .ok p) (p : Nat × List Char) :
    answer (codeUnit other) ≠ .ok p := by
  intro read
  obtain ⟨front, isUnit, rfl⟩ := answer_codeUnit_eq_ok_iff.mp read
  have same : Agree (byteSize front + 0) (front ++ p.2) text := by
    rw [byteSize_of_codeUnit isUnit]
    exact agree.symm
  obtain ⟨rest, parts, -⟩ := exists_append_of_agree same
  exact refused (p.1, rest) (answer_codeUnit_eq_ok_iff.mpr ⟨front, isUnit, parts⟩)

theorem answer_codeUnit_of_long {text : List Char} (refused : ∀ p, answer (codeUnit text) ≠ .ok p)
    (long : 4 ≤ byteSize text) : answer (codeUnit text) = .error ⟨.invalidEscape, text, 4⟩ := by
  rw [answer_codeUnit_of_refused refused, noCodeUnit, if_neg (Nat.not_lt_of_le long)]

/-- What is read behind a code unit either goes on or stops right there. -/
theorem settled_codeUnit_bind {g : Nat → List Char → Answer α}
    (each : ∀ unit rest, Settled (g unit) rest ∨
      ∃ fault : ReadFault, fault.isEnd = false ∧ ∀ rest, g unit rest = stopBefore fault rest)
    (text : List Char) :
    Settled (fun text => (answer (codeUnit text)).bind fun p => g p.1 p.2) text := by
  by_cases found : ∃ p, answer (codeUnit text) = .ok p
  · obtain ⟨⟨unit, rest⟩, read⟩ := found
    obtain ⟨front, isUnit, rfl⟩ := answer_codeUnit_eq_ok_iff.mp read
    have taken : ∀ other,
        ((answer (codeUnit (front ++ other))).bind fun p => g p.1 p.2) = g unit other := by
      intro other
      rw [answer_codeUnit_eq_ok_iff.mpr ⟨front, isUnit, rfl⟩]
      rfl
    rcases each unit rest with settled | ⟨fault, inside, stops⟩
    · exact settled.behind front fun other _ => taken other
    · refine .stopped front rfl inside ?_ (Nat.zero_le _) fun other _ => ?_
      · rw [byteSize_of_codeUnit isUnit]
        decide
      · rw [taken, stops]
        rfl
  · have refused := not_exists.mp found
    by_cases long : 4 ≤ byteSize text
    · have stops : ∀ other, Agree 4 text other →
          ((answer (codeUnit other)).bind fun p => g p.1 p.2) =
            .error ⟨.invalidEscape, other, 4⟩ := by
        intro other agree
        have refused' := codeUnit_refused_of_agree agree refused
        rw [answer_codeUnit_of_long refused' (byteSize_le_of_agree agree long)]
        rfl
      exact .stopped [] rfl rfl (Nat.succ_pos 3) long stops
    · have answered := answer_codeUnit_of_refused refused
      rw [noCodeUnit, if_pos (Nat.lt_of_not_le long)] at answered
      exact .ended (congrArg (·.bind fun p => g p.1 p.2) answered) rfl rfl

def pairOf (leading unit : Nat) (rest : List Char) : Answer Char :=
  if isTrailing unit then .ok (ofSurrogates leading unit, rest)
  else stopBefore .loneSurrogate rest

theorem settled_pairOf (leading unit : Nat) (rest : List Char) :
    Settled (pairOf leading unit) rest ∨
      ∃ fault : ReadFault, fault.isEnd = false ∧
        ∀ rest, pairOf leading unit rest = stopBefore fault rest := by
  by_cases trailing : isTrailing unit = true
  · left
    exact (settled_ok _ rest).congr fun other _ => if_pos trailing
  · right
    exact ⟨.loneSurrogate, rfl, fun _ => if_neg trailing⟩

def trailingEscape (leading : Nat) (text : List Char) : Answer Char :=
  match text with
  | [] => stopAt .endInString []
  | c :: rest =>
    if c = 'u' then (answer (codeUnit rest)).bind fun p => pairOf leading p.1 p.2
    else stopAt .unfinishedSurrogate (c :: rest)

theorem answer_trailingUnit_cons (leading : Nat) (c : Char) (text : List Char) :
    answer (trailingUnit leading (c :: text)) =
      if c = '\\' then trailingEscape leading text
      else stopAt .unfinishedSurrogate (c :: text) := by
  by_cases backslash : c = '\\'
  · subst c
    rw [if_pos rfl]
    cases text with
    | nil => rfl
    | cons d rest =>
      by_cases unit : d = 'u'
      · subst d
        exact answer_trailingUnit_pair leading rest
      · have stops : trailingUnit leading ('\\' :: d :: rest) =
            stopAt .unfinishedSurrogate (d :: rest) := by
          simp [trailingUnit, unit]
        rw [trailingEscape, if_neg unit, stops]
        rfl
  · have stops : trailingUnit leading (c :: text) = stopAt .unfinishedSurrogate (c :: text) := by
      simp [trailingUnit, backslash]
    rw [if_neg backslash, stops]
    rfl

theorem settled_trailingEscape (leading : Nat) (text : List Char) :
    Settled (trailingEscape leading) text :=
  settled_of_expected (f := trailingEscape leading) 'u' .endInString .unfinishedSurrogate
    (by decide) rfl rfl rfl (fun _ _ => rfl) (settled_codeUnit_bind (settled_pairOf leading)) text

theorem settled_trailingUnit (leading : Nat) (text : List Char) :
    Settled (fun text => answer (trailingUnit leading text)) text :=
  settled_of_expected (f := fun text => answer (trailingUnit leading text)) '\\' .endInString
    .unfinishedSurrogate (by decide) rfl rfl rfl (answer_trailingUnit_cons leading)
    (settled_trailingEscape leading) text

def characterOf (unit : Nat) (rest : List Char) : Answer Char :=
  if isTrailing unit then stopBefore .loneSurrogate rest
  else if isLeading unit then answer (trailingUnit unit rest)
  else .ok (Char.ofNat unit, rest)

theorem settled_characterOf (unit : Nat) (rest : List Char) :
    Settled (characterOf unit) rest ∨
      ∃ fault : ReadFault, fault.isEnd = false ∧
        ∀ rest, characterOf unit rest = stopBefore fault rest := by
  by_cases trailing : isTrailing unit = true
  · right
    exact ⟨.loneSurrogate, rfl, fun _ => if_pos trailing⟩
  · left
    by_cases leading : isLeading unit = true
    · apply (settled_trailingUnit unit rest).congr
      intro other _
      rw [characterOf, if_neg trailing, if_pos leading]
    · apply (settled_ok (Char.ofNat unit) rest).congr
      intro other _
      rw [characterOf, if_neg trailing, if_neg leading]

theorem settled_unicode (text : List Char) : Settled (fun text => answer (unicode text)) text :=
  (settled_codeUnit_bind settled_characterOf text).congr fun other _ => answer_unicode other

theorem lt_of_simpleEscape? (c : Char) (h : (simpleEscape? c).isSome = true) : c.toNat < 128 := by
  have letters : ∀ e ∈ Grammar.escapeLetters, e.1.toNat < 128 := by decide
  obtain ⟨value, simple⟩ := Option.isSome_iff_exists.mp h
  exact letters (c, value) (simpleEscape?_eq_some_iff.mp simple)

theorem settled_escaped (text : List Char) : Settled (fun text => answer (escaped text)) text := by
  cases text with
  | nil => exact .ended rfl rfl rfl
  | cons c rest =>
    cases simple : simpleEscape? c with
    | some value =>
      apply (settled_ok value rest).cons
      intro other
      rw [answer_escaped_cons, simple]
    | none =>
      by_cases unit : c = 'u'
      · subst c
        exact (settled_unicode rest).cons (answer_escaped_cons 'u')
      · refine settled_of_stop .invalidEscape rfl fun c' rest' alike => ?_
        have same := alike.apply_eq lt_of_simpleEscape?
        rw [simple, Option.isSome_none, Option.isSome_eq_false_iff,
          Option.isNone_iff_eq_none] at same
        rw [answer_escaped_cons, same]
        exact if_neg (alike.ne (by decide) unit)

theorem length_lt_of_answer {text rest : List Char} {r : Reading α text} {x : α}
    (h : answer r = .ok (x, rest)) : rest.length < text.length := by
  obtain ⟨taken, -, same⟩ := map_eq_ok h
  obtain ⟨-, rfl⟩ := Prod.mk.inj same
  exact taken.shorter

theorem settled_stringBody (text : List Char) :
    Settled (fun text => answer (stringBody text)) text := by
  induction length : text.length using Nat.strongRecOn generalizing text with
  | ind n ih =>
    subst length
    cases text with
    | nil => exact .ended (by rw [stringBody]; rfl) rfl rfl
    | cons c text =>
      by_cases quote : c = '"'
      · subst c
        exact (settled_ok [] text).cons (answer_stringBody_cons '"')
      · by_cases backslash : c = '\\'
        · subst c
          have read := (settled_escaped text).bind (g := fun x rest =>
            (answer (stringBody rest)).map fun p => (x :: p.1, p.2))
          apply Settled.cons (read fun x rest escape => ?_) (answer_stringBody_cons '\\')
          have shorter := length_lt_of_answer escape
          exact (ih rest.length (by rw [List.length_cons]; omega) rest rfl).map (x :: ·)
        · by_cases control : c.toNat < 0x20
          · refine settled_of_stop .controlCharacter rfl fun c' rest alike => ?_
            obtain rfl := alike.eq_of_lt (by omega)
            rw [answer_stringBody_cons, if_neg quote, if_neg backslash, if_pos control]
          · have others := (ih text.length (Nat.lt_succ_self _) text rfl).map (c :: ·)
            apply others.cons
            intro other
            rw [answer_stringBody_cons, if_neg quote, if_neg backslash, if_neg control]

end ContractFixture.Json.Reader
