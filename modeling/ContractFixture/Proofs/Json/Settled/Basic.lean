import ContractFixture.Proofs.Json.Documents
import ContractFixture.Proofs.Text.Bytes

/-!
# Answers that later bytes cannot change

A piece that is taken is settled with the first byte behind it, a refusal with the bytes that were
seen.
-/

namespace ContractFixture.Json.Reader

open Text (Agree Alike byteSize_append agree_append_iff exists_cons_of_agree eq_nil_of_agree)

variable {α β : Type}

/-- How the answer for `text` depends on its bytes. Nothing is said of a number that is too large.
-/
inductive Settled (read : List Char → Answer α) (text : List Char) : Prop
  | ended {stop : Stop} (answered : read text = .error stop) (atEnd : stop.fault.isEnd = true)
      (rest : stop.rest = [])
  | tooLarge {stop : Stop} (answered : read text = .error stop)
      (fault : stop.fault = .numberOutOfRange)
  /-- Whatever follows the bytes that were seen, reading stops there for the same reason. -/
  | stopped (front : List Char) {rest : List Char} {fault : ReadFault} {seen : Nat}
      (parts : text = front ++ rest) (inside : fault.isEnd = false)
      (looked : 0 < byteSize front + seen) (within : seen ≤ byteSize rest)
      (answered : ∀ other, Agree seen rest other →
        read (front ++ other) = .error ⟨fault, other, seen⟩)
  /-- Whatever follows the first byte of the rest, the same piece is taken. -/
  | took (front : List Char) {rest : List Char} (x : α) (parts : text = front ++ rest)
      (answered : ∀ other, Agree 1 rest other → read (front ++ other) = .ok (x, other))

namespace Settled

variable {f g : List Char → Answer α} {text : List Char}

/-! ## One reader after another -/

theorem behind (front : List Char) (h : Settled g text)
    (reads_on : ∀ other, Agree 1 text other → f (front ++ other) = g other) :
    Settled f (front ++ text) := by
  have here := reads_on text (.refl 1 text)
  cases h with
  | ended answered atEnd rest => exact .ended (here.trans answered) atEnd rest
  | tooLarge answered fault => exact .tooLarge (here.trans answered) fault
  | @stopped front' rest fault seen parts inside looked within answered =>
    subst parts
    refine .stopped (front ++ front') (List.append_assoc ..).symm inside ?_ within ?_
    · rw [byteSize_append]
      omega
    · intro other agree
      have first := (agree_append_iff.mpr agree).mono (Nat.succ_le_of_lt looked)
      rw [List.append_assoc, reads_on _ first, answered other agree]
  | @took front' rest x parts answered =>
    subst parts
    refine .took (front ++ front') x (List.append_assoc ..).symm fun other agree => ?_
    have first := (agree_append_iff.mpr agree).mono (Nat.le_add_left 1 (byteSize front'))
    rw [List.append_assoc, reads_on _ first, answered other agree]

theorem congr (h : Settled g text) (same : ∀ other, Agree 1 text other → f other = g other) :
    Settled f text :=
  behind [] h same

theorem cons {c : Char} (h : Settled g text) (reads_on : ∀ other, f (c :: other) = g other) :
    Settled f (c :: text) :=
  behind [c] h fun other _ => reads_on other

theorem congr_of_lt {c : Char} (ascii : c.toNat < 128) (h : Settled g (c :: text))
    (same : ∀ other, f (c :: other) = g (c :: other)) : Settled f (c :: text) := by
  apply h.congr
  intro other agree
  obtain ⟨c', rest, rfl, alike⟩ := exists_cons_of_agree agree
  rw [alike.eq_of_lt ascii, same]

theorem bind {g : α → List Char → Answer β} (h : Settled f text)
    (each : ∀ x rest, f text = .ok (x, rest) → Settled (g x) rest) :
    Settled (fun text => (f text).bind fun p => g p.1 p.2) text := by
  cases h with
  | @ended stop answered atEnd rest =>
    exact .ended (congrArg (·.bind fun p => g p.1 p.2) answered) atEnd rest
  | tooLarge answered fault => exact .tooLarge (congrArg (·.bind fun p => g p.1 p.2) answered) fault
  | stopped front parts inside looked within answered =>
    refine .stopped front parts inside looked within fun other agree => ?_
    rw [answered other agree]
    rfl
  | @took front rest x parts answered =>
    subst parts
    apply (each x rest (answered rest (.refl 1 rest))).behind front
    intro other agree
    rw [answered other agree]
    rfl

theorem of_refused {stop : Stop} (h : Settled f text) (refused : f text = .error stop) :
    (stop.fault.isEnd = true ∧ stop.rest = []) ∨ stop.fault = .numberOutOfRange ∨
      stop.fault.isEnd = false ∧ ∃ front, text = front ++ stop.rest ∧
        0 < byteSize front + stop.seen ∧ stop.seen ≤ byteSize stop.rest ∧
        ∀ other, Agree stop.seen stop.rest other →
          f (front ++ other) = .error ⟨stop.fault, other, stop.seen⟩ := by
  cases h with
  | ended answered atEnd rest =>
    obtain rfl := Except.error.inj (answered.symm.trans refused)
    exact Or.inl ⟨atEnd, rest⟩
  | tooLarge answered fault =>
    obtain rfl := Except.error.inj (answered.symm.trans refused)
    exact Or.inr (Or.inl fault)
  | @stopped front rest _ _ parts inside looked within answered =>
    subst parts
    obtain rfl := Except.error.inj ((answered rest (.refl _ _)).symm.trans refused)
    exact Or.inr (Or.inr ⟨inside, front, rfl, looked, within, answered⟩)
  | @took front rest x parts answered =>
    subst parts
    cases (answered rest (.refl _ _)).symm.trans refused

end Settled

/-! ## Pieces and stops -/

theorem settled_ok (x : α) (text : List Char) : Settled (fun text => .ok (x, text)) text :=
  .took [] x rfl fun _ _ => rfl

theorem settled_stopAt (fault : ReadFault) (inside : fault.isEnd = false) (c : Char)
    (text : List Char) : Settled (α := α) (stopAt fault) (c :: text) := by
  refine .stopped [] rfl inside Nat.one_pos ?_ fun _ _ => rfl
  have positive := c.utf8Size_pos
  rw [byteSize]
  omega

theorem settled_of_stop (fault : ReadFault) {f : List Char → Answer α} {c : Char}
    {text : List Char} (inside : fault.isEnd = false)
    (stops : ∀ c' rest, Alike c c' → f (c' :: rest) = stopAt fault (c' :: rest)) :
    Settled f (c :: text) := by
  apply (settled_stopAt fault inside c text).congr
  intro other agree
  obtain ⟨c', rest, rfl, alike⟩ := exists_cons_of_agree agree
  exact stops c' rest alike

theorem settled_of_expected (letter : Char) (missing fault : ReadFault)
    {f g : List Char → Answer α} (ascii : letter.toNat < 128) (atEnd : missing.isEnd = true)
    (inside : fault.isEnd = false) (asks : f [] = stopAt missing [])
    (goes : ∀ c rest, f (c :: rest) = if c = letter then g rest else stopAt fault (c :: rest))
    (settled : ∀ rest, Settled g rest) (text : List Char) : Settled f text := by
  cases text with
  | nil => exact .ended asks atEnd rfl
  | cons c rest =>
    by_cases same : c = letter
    · subst c
      exact (settled rest).cons fun other => (goes letter other).trans (if_pos rfl)
    · apply settled_of_stop fault inside
      intro c' rest' alike
      rw [goes, if_neg (alike.ne ascii same)]

theorem Settled.map {f : List Char → Answer α} {text : List Char} (g : α → β)
    (h : Settled f text) : Settled (fun text => (f text).map fun p => (g p.1, p.2)) text := by
  have bound := h.bind (g := fun x rest => .ok (g x, rest)) fun x rest _ => settled_ok (g x) rest
  apply bound.congr
  intro other _
  cases f other <;> rfl

/-! ## White space -/

theorem lt_of_isBlank (c : Char) (h : isBlank c = true) : c.toNat < 128 := by
  rcases isBlank_iff.mp h with rfl | rfl | rfl | rfl <;> decide

theorem skipBlanks_of_agree {text other : List Char} (h : Agree 1 (skipBlanks text) other) :
    skipBlanks other = other := by
  have head := List.head?_dropWhile_not isBlank text
  rw [← skipBlanks] at head
  cases start : skipBlanks text with
  | nil =>
    rw [start] at h
    rw [eq_nil_of_agree Nat.one_pos h]
    rfl
  | cons c rest =>
    rw [start] at h head
    obtain ⟨c', rest', rfl, alike⟩ := exists_cons_of_agree h
    exact skipBlanks_cons ((alike.apply_eq lt_of_isBlank).trans head) rest'

theorem Settled.skipBlanks {f g : List Char → Answer α} {text : List Char}
    (h : Settled g (skipBlanks text)) (reads_on : ∀ other, f other = g (Reader.skipBlanks other)) :
    Settled f text := by
  obtain ⟨blank, white, parts⟩ := exists_blank text
  rw [parts]
  apply h.behind blank
  intro other agree
  rw [reads_on, skipBlanks_append white, skipBlanks_of_agree agree]

/-! ## Words -/

theorem settled_word (value : Json) {letter : Char} {letters : List Char}
    (ascii : ∀ l ∈ letter :: letters, l.toNat < 128) (text : List Char) :
    Settled (fun text => answer (word value letter letters text)) text := by
  induction letters generalizing letter text with
  | nil =>
    have first := ascii letter (List.mem_cons_self ..)
    have goes : ∀ c rest, answer (word value letter [] (c :: rest)) =
        if c = letter then .ok (value, rest) else stopAt .expectedWord (c :: rest) := by
      intro c rest
      simp only [word, apply_ite answer]
      rfl
    exact settled_of_expected (f := fun text => answer (word value letter [] text)) letter
      .endInValue .expectedWord first rfl rfl rfl goes (settled_ok value) text
  | cons next letters ih =>
    obtain ⟨first, others⟩ := List.forall_mem_cons.mp ascii
    have goes : ∀ c rest, answer (word value letter (next :: letters) (c :: rest)) =
        if c = letter then answer (word value next letters rest)
        else stopAt .expectedWord (c :: rest) := by
      intro c rest
      simp only [word, apply_ite answer]
      cases word value next letters rest <;> rfl
    exact settled_of_expected (f := fun text => answer (word value letter (next :: letters) text))
      letter .endInValue .expectedWord first rfl rfl rfl goes (ih others) text

end ContractFixture.Json.Reader
