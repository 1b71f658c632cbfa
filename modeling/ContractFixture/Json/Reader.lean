import ContractFixture.Json.Numeral
import ContractFixture.Json.ReadError
import ContractFixture.Text.HexDigit
import ContractFixture.Text.Taken

/-!
# Reading documents

Each reader says in its result type that the rest is shorter, which is why the loops over items,
members and characters end.
-/

namespace ContractFixture.Json.Reader

open Text (Taken)

/-! ## Readers -/

/-- Where reading stopped: before `rest`, after a look at `seen` further bytes. -/
structure Stop where
  fault : ReadFault
  rest : List Char
  seen : Nat

abbrev Reading (α : Type) (text : List Char) := Except Stop (Taken α text)

/-- Stops at the next character, which is looked at. -/
def stopAt {α : Type} (fault : ReadFault) (rest : List Char) : Except Stop α :=
  .error ⟨fault, rest, 1⟩

/-- Stops where the text is read up to, without a look ahead. -/
def stopBefore {α : Type} (fault : ReadFault) (rest : List Char) : Except Stop α :=
  .error ⟨fault, rest, 0⟩

/-! ## White space and words -/

def isBlank (c : Char) : Bool := c = ' ' || c = '\n' || c = '\t' || c = '\r'

def skipBlanks (text : List Char) : List Char := text.dropWhile isBlank

theorem length_skipBlanks_le (text : List Char) : (skipBlanks text).length ≤ text.length :=
  (List.dropWhile_suffix _).length_le

theorem length_le_of_skipBlanks {text : List Char} {c : Char} {rest : List Char}
    (h : skipBlanks text = c :: rest) : (c :: rest).length ≤ text.length :=
  h ▸ length_skipBlanks_le text

def word (value : Json) (letter : Char) (letters text : List Char) : Reading Json text :=
  match letters, text with
  | _, [] => stopAt .endInValue []
  | [], c :: rest =>
    if c = letter then .ok (.first c rest value) else stopAt .expectedWord (c :: rest)
  | next :: letters, c :: rest =>
    if c = letter then
      match word value next letters rest with
      | .error stop => .error stop
      | .ok taken => .ok (taken.after c)
    else stopAt .expectedWord (c :: rest)

/-! ## Numbers -/

def digits (text : List Char) : List Char := text.takeWhile Char.isDigit

def afterDigits (text : List Char) : List Char := text.dropWhile Char.isDigit

theorem length_afterDigits_le (text : List Char) : (afterDigits text).length ≤ text.length :=
  (List.dropWhile_suffix _).length_le

/-- Digits that have to be there: without one the fault depends on whether the text has ended. -/
def someDigits (text : List Char) : Except Stop (List Char × List Char) :=
  match digits text, text with
  | [], [] => stopAt .endInValue []
  | [], _ => stopAt .invalidNumber text
  | found, _ => .ok (found, afterDigits text)

theorem length_le_of_someDigits {text found rest : List Char}
    (h : someDigits text = .ok (found, rest)) : rest.length ≤ text.length := by
  unfold someDigits at h
  split at h
  · simp [stopAt] at h
  · simp [stopAt] at h
  · simp only [Except.ok.injEq, Prod.mk.injEq] at h
    exact h.2 ▸ length_afterDigits_le _

theorem length_afterDigits_lt (c : Char) (text : List Char) :
    (afterDigits text).length < (c :: text).length :=
  Nat.lt_succ_of_le (length_afterDigits_le text)

def whole (text : List Char) : Reading (List Char) text :=
  match text with
  | [] => stopAt .endInValue []
  | c :: rest =>
    if c = '0' then
      match digits rest with
      | [] => .ok (.first c rest ['0'])
      | _ => stopAt .invalidNumber rest
    else if c.isDigit then
      .ok ⟨c :: digits rest, afterDigits rest, length_afterDigits_lt c rest⟩
    else stopAt .invalidNumber (c :: rest)

def fraction (text : List Char) : Except Stop (Option (List Char) × List Char) :=
  match text with
  | '.' :: rest => do
    let (found, rest) ← someDigits rest
    return (some found, rest)
  | _ => .ok (none, text)

theorem length_le_of_fraction {text rest : List Char} {found : Option (List Char)}
    (h : fraction text = .ok (found, rest)) : rest.length ≤ text.length := by
  unfold fraction at h
  split at h
  · rename_i after
    cases hd : someDigits after with
    | error stop => simp [hd, bind, Except.bind] at h
    | ok pair =>
      have := length_le_of_someDigits hd
      simp only [hd, bind, Except.bind, pure, Except.pure, Except.ok.injEq, Prod.mk.injEq] at h
      simp only [List.length_cons, ← h.2]
      omega
  · simp only [Except.ok.injEq, Prod.mk.injEq] at h
    exact h.2 ▸ Nat.le_refl _

def exponentSign (text : List Char) : Bool × List Char :=
  match text with
  | '+' :: rest => (false, rest)
  | '-' :: rest => (true, rest)
  | _ => (false, text)

theorem length_exponentSign_le (text : List Char) :
    (exponentSign text).2.length ≤ text.length := by
  unfold exponentSign
  split <;> simp

def exponent (text : List Char) : Except Stop (Option NumeralExponent × List Char) :=
  match text with
  | c :: rest =>
    if c = 'e' ∨ c = 'E' then do
      let (negative, rest) := exponentSign rest
      let (found, rest) ← someDigits rest
      return (some ⟨negative, found⟩, rest)
    else .ok (none, text)
  | [] => .ok (none, [])

theorem length_le_of_exponent {text rest : List Char} {found : Option NumeralExponent}
    (h : exponent text = .ok (found, rest)) : rest.length ≤ text.length := by
  unfold exponent at h
  split at h
  · rename_i c after
    split at h
    · have sign := length_exponentSign_le after
      cases hd : someDigits (exponentSign after).2 with
      | error stop => simp [hd, bind, Except.bind] at h
      | ok pair =>
        have := length_le_of_someDigits hd
        simp only [hd, bind, Except.bind, pure, Except.pure, Except.ok.injEq, Prod.mk.injEq] at h
        simp only [List.length_cons, ← h.2]
        omega
    · simp only [Except.ok.injEq, Prod.mk.injEq] at h
      exact h.2 ▸ Nat.le_refl _
  · simp only [Except.ok.injEq, Prod.mk.injEq] at h
    exact h.2 ▸ Nat.le_refl _

def sign (text : List Char) : Bool × List Char :=
  match text with
  | '-' :: rest => (true, rest)
  | _ => (false, text)

theorem length_sign_le (text : List Char) : (sign text).2.length ≤ text.length := by
  unfold sign
  split <;> simp

def numeral (text : List Char) : Reading Numeral text :=
  match whole (sign text).2 with
  | .error stop => .error stop
  | .ok w =>
    match hf : fraction w.rest with
    | .error stop => .error stop
    | .ok (f, afterFraction) =>
      match he : exponent afterFraction with
      | .error stop => .error stop
      | .ok (e, rest) => .ok ⟨⟨(sign text).1, w.value, f, e⟩, rest, by
          have := length_sign_le text
          have := w.shorter
          have := length_le_of_fraction hf
          have := length_le_of_exponent he
          omega⟩

def number (text : List Char) : Reading Json text :=
  match numeral text with
  | .error stop => .error stop
  | .ok n =>
    match n.value.number? with
    | some value => .ok ⟨.num value, n.rest, n.shorter⟩
    | none => stopBefore .numberOutOfRange (n.value.unread ++ n.rest)

/-! ## Strings -/

def byteSize : List Char → Nat
  | [] => 0
  | c :: rest => c.utf8Size + byteSize rest

/-- Stops at something else than four hexadecimal digits, of which as many are looked at as are
there. -/
def noCodeUnit {α : Type} (text : List Char) : Except Stop α :=
  if byteSize text < 4 then stopBefore .endInString [] else .error ⟨.invalidEscape, text, 4⟩

def codeUnit (text : List Char) : Reading Nat text :=
  match text with
  | a :: b :: c :: d :: rest =>
    match Text.hexValue? [a, b, c, d] with
    | some value => .ok ((((Taken.first d rest value).after c).after b).after a)
    | none => noCodeUnit (a :: b :: c :: d :: rest)
  | short => noCodeUnit short

def isLeading (unit : Nat) : Bool := 0xD800 ≤ unit && unit < 0xDC00

def isTrailing (unit : Nat) : Bool := 0xDC00 ≤ unit && unit < 0xE000

def ofSurrogates (leading trailing : Nat) : Char :=
  Char.ofNat (0x10000 + (leading - 0xD800) * 0x400 + (trailing - 0xDC00))

def trailingUnit (leading : Nat) (text : List Char) : Reading Char text :=
  match text with
  | [] => stopAt .endInString []
  | ['\\'] => stopAt .endInString []
  | '\\' :: 'u' :: rest =>
    match codeUnit rest with
    | .error stop => .error stop
    | .ok unit =>
      if isTrailing unit.value then
        .ok (((unit.map (ofSurrogates leading)).after 'u').after '\\')
      else stopBefore .loneSurrogate unit.rest
  | '\\' :: rest => stopAt .unfinishedSurrogate rest
  | rest => stopAt .unfinishedSurrogate rest

/-- What follows the `u` of an escape: one code unit, or two that stand for one character. -/
def unicode (text : List Char) : Reading Char text :=
  match codeUnit text with
  | .error stop => .error stop
  | .ok unit =>
    if isTrailing unit.value then stopBefore .loneSurrogate unit.rest
    else if isLeading unit.value then
      match trailingUnit unit.value unit.rest with
      | .error stop => .error stop
      | .ok char => .ok (unit.join (fun _ c => c) char)
    else .ok (unit.map Char.ofNat)

def simpleEscape? (c : Char) : Option Char :=
  match c with
  | '"' => some '"'
  | '\\' => some '\\'
  | '/' => some '/'
  | 'b' => some '\x08'
  | 'f' => some '\x0c'
  | 'n' => some '\n'
  | 'r' => some '\r'
  | 't' => some '\t'
  | _ => none

def escaped (text : List Char) : Reading Char text :=
  match text with
  | [] => stopAt .endInString []
  | c :: rest =>
    match simpleEscape? c with
    | some value => .ok (.first c rest value)
    | none =>
      if c = 'u' then
        match unicode rest with
        | .error stop => .error stop
        | .ok taken => .ok (taken.after c)
      else stopAt .invalidEscape (c :: rest)

def stringBody (text : List Char) : Reading (List Char) text :=
  match text with
  | [] => stopAt .endInString []
  | c :: rest =>
    if c = '"' then .ok (.first c rest [])
    else if c = '\\' then
      match escaped rest with
      | .error stop => .error stop
      | .ok char =>
        match stringBody char.rest with
        | .error stop => .error stop
        | .ok others => .ok ((char.join List.cons others).after c)
    else if c.toNat < 0x20 then stopAt .controlCharacter (c :: rest)
    else
      match stringBody rest with
      | .error stop => .error stop
      | .ok others => .ok ((others.map (c :: ·)).after c)
termination_by text.length
decreasing_by
  · exact Nat.lt_succ_of_lt char.shorter
  · exact Nat.lt_succ_self _

/-! ## Lists and objects

Both hold pieces with commas between them. Their readers are given the reader of one piece. -/

/-- How a container ends, and what is missed in one that does not go on. -/
structure Enclosure where
  close : Char
  atEnd : ReadFault
  elsewhere : ReadFault

def brackets : Enclosure := ⟨']', .endInList, .expectedCommaOrBracket⟩

def braces : Enclosure := ⟨'}', .endInObject, .expectedCommaOrBrace⟩

def more {α : Type} (e : Enclosure) (piece : (text : List Char) → Reading α text)
    (text : List Char) : Reading (List α) text :=
  match h : skipBlanks text with
  | [] => stopAt e.atEnd []
  | c :: rest =>
    have bound := length_le_of_skipBlanks h
    if c = e.close then .ok ((Taken.first c rest []).widen bound)
    else if c = ',' then
      if (skipBlanks rest).head? = some e.close then stopAt .trailingComma (skipBlanks rest)
      else
        match piece rest with
        | .error stop => .error stop
        | .ok first =>
          match more e piece first.rest with
          | .error stop => .error stop
          | .ok others => .ok (((first.join List.cons others).after c).widen bound)
    else stopAt e.elsewhere (c :: rest)
termination_by text.length
decreasing_by exact Nat.lt_of_lt_of_le (Nat.lt_succ_of_lt first.shorter) bound

def enclosed {α : Type} (e : Enclosure) (piece : (text : List Char) → Reading α text)
    (text : List Char) : Reading (List α) text :=
  match h : skipBlanks text with
  | [] => stopAt e.atEnd []
  | c :: rest =>
    if c = e.close then .ok ((Taken.first c rest []).widen (length_le_of_skipBlanks h))
    else
      match piece text with
      | .error stop => .error stop
      | .ok first =>
        match more e piece first.rest with
        | .error stop => .error stop
        | .ok others => .ok (first.join List.cons others)

def colon (text : List Char) : Reading Unit text :=
  match h : skipBlanks text with
  | [] => stopAt .endInObject []
  | c :: rest =>
    if c = ':' then .ok ((Taken.first c rest ()).widen (length_le_of_skipBlanks h))
    else stopAt .expectedColon (c :: rest)

def key (text : List Char) : Reading String text :=
  match h : skipBlanks text with
  | [] => stopAt .endInValue []
  | c :: rest =>
    if c = '"' then
      match stringBody rest with
      | .error stop => .error stop
      | .ok body => .ok (((body.map String.ofList).after c).widen (length_le_of_skipBlanks h))
    else stopAt .keyNotString (c :: rest)

def member (item : (text : List Char) → Reading Json text) (text : List Char) :
    Reading (String × Json) text :=
  match key text with
  | .error stop => .error stop
  | .ok name =>
    match colon name.rest with
    | .error stop => .error stop
    | .ok mark =>
      match item mark.rest with
      | .error stop => .error stop
      | .ok value => .ok (name.join Prod.mk (mark.join (fun _ v => v) value))

/-! ## Values -/

/-- A list or an object, after its opening character `c`. Where the allowance is used up there is no
`item`. -/
def container (item : Option ((text : List Char) → Reading Json text)) (c : Char)
    (rest : List Char) : Reading Json (c :: rest) :=
  match item with
  | none => stopAt .tooDeep (c :: rest)
  | some item =>
    if c = '[' then
      match enclosed brackets item rest with
      | .error stop => .error stop
      | .ok list => .ok ((list.map Json.arr).after c)
    else
      match enclosed braces (member item) rest with
      | .error stop => .error stop
      | .ok list => .ok ((list.map Json.obj).after c)

def valueFrom (item : Option ((text : List Char) → Reading Json text)) (c : Char)
    (rest : List Char) : Reading Json (c :: rest) :=
  if c = 'n' then word .null 'n' ['u', 'l', 'l'] (c :: rest)
  else if c = 't' then word (.bool true) 't' ['r', 'u', 'e'] (c :: rest)
  else if c = 'f' then word (.bool false) 'f' ['a', 'l', 's', 'e'] (c :: rest)
  else if c = '-' ∨ c.isDigit then number (c :: rest)
  else if c = '"' then
    match stringBody rest with
    | .error stop => .error stop
    | .ok body => .ok ((body.map fun cs => Json.str (String.ofList cs)).after c)
  else if c = '[' ∨ c = '{' then container item c rest
  else stopAt .expectedValue (c :: rest)

def valueAfterBlanks (item : Option ((text : List Char) → Reading Json text))
    (text : List Char) : Reading Json text :=
  match h : skipBlanks text with
  | [] => stopAt .endInValue []
  | c :: rest =>
    match valueFrom item c rest with
    | .error stop => .error stop
    | .ok taken => .ok (taken.widen (length_le_of_skipBlanks h))

/-- One value with white space before it, which nests at most `allowance` containers. -/
def value : (allowance : Nat) → (text : List Char) → Reading Json text
  | 0 => valueAfterBlanks none
  | left + 1 => valueAfterBlanks (some (value left))

end Reader

/-! ## Documents -/

/-- The place `seen` bytes into `rest`, the unread end of `text`, or the end of the text. -/
def Reader.Stop.error (stop : Reader.Stop) (text : List Char) : ReadError where
  fault := stop.fault
  place := Place.atByte text
    (min (Reader.byteSize text) (Reader.byteSize text - Reader.byteSize stop.rest + stop.seen))

/-- One document, with nothing but white space around it and all members kept as they were
written. -/
def readChars (allowance : Nat) (text : List Char) : Except Reader.Stop Json :=
  match Reader.value allowance text with
  | .error stop => .error stop
  | .ok document =>
    match Reader.skipBlanks document.rest with
    | [] => .ok document.value
    | rest => Reader.stopAt .trailingCharacters rest

def readRaw (allowance : Nat) (text : String) : Except ReadError Json :=
  (readChars allowance text.toList).mapError (·.error text.toList)

end ContractFixture.Json
