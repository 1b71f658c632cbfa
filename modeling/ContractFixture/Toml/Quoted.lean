import ContractFixture.Text.HexDigit
import ContractFixture.Text.Taken

/-! # Strings in a TOML text -/

namespace ContractFixture.Toml

open Text (Taken hexValue?)

abbrev Reading (α : Type) (text : List Char) := Option (Taken α text)

def isPrintable (c : Char) : Bool := c = '\t' || (0x20 ≤ c.toNat && c.toNat != 0x7F)

/-! ## Escapes -/

def charOf? (n : Nat) : Option Char :=
  if h : n.isValidChar then some (Char.ofNatAux n h) else none

def simpleEscape? (c : Char) : Option Char :=
  match c with
  | 'b' => some '\x08'
  | 't' => some '\t'
  | 'n' => some '\n'
  | 'f' => some '\x0c'
  | 'r' => some '\r'
  | '"' => some '"'
  | '\\' => some '\\'
  | _ => none

/-- What follows a backslash: a letter, or a code point of four or eight digits. -/
def escaped (text : List Char) : Reading Char text :=
  match text with
  | 'u' :: a :: b :: c :: d :: rest =>
    ((hexValue? [a, b, c, d]).bind charOf?).map fun char =>
      ((((Taken.first d rest char).after c).after b).after a).after 'u'
  | 'U' :: a :: b :: c :: d :: e :: f :: g :: h :: rest =>
    ((hexValue? [a, b, c, d, e, f, g, h]).bind charOf?).map fun char =>
      ((((((((Taken.first h rest char).after g).after f).after e).after d).after c).after b).after
        a).after 'U'
  | c :: rest => (simpleEscape? c).map (.first c rest)
  | [] => none

/-! ## One line -/

def basicLine (text : List Char) : Reading (List Char) text :=
  match text with
  | [] => none
  | c :: rest =>
    if c = '"' then some (.first c rest [])
    else if c = '\\' then
      match escaped rest with
      | none => none
      | some char =>
        (basicLine char.rest).map fun others => (char.join List.cons others).after c
    else if isPrintable c then (basicLine rest).map fun others => (others.map (c :: ·)).after c
    else none
termination_by text.length
decreasing_by
  · exact Nat.lt_succ_of_lt char.shorter
  · exact Nat.lt_succ_self _

def literalLine : (text : List Char) → Reading (List Char) text
  | [] => none
  | c :: rest =>
    if c = '\'' then some (.first c rest [])
    else if isPrintable c then (literalLine rest).map fun others => (others.map (c :: ·)).after c
    else none

/-! ## Several lines -/

/-- The quote `c`, and of the quotes after it up to `limit`, which are the value. -/
def moreQuotes (quote : Char) (limit : Nat) (c : Char) (rest : List Char) :
    Taken (List Char) (c :: rest) :=
  match limit, rest with
  | limit + 1, d :: rest =>
    if d = quote then ((moreQuotes quote limit d rest).map (quote :: ·)).after c
    else .first c (d :: rest) []
  | _, rest => .first c rest []

/-- The closing quotes of a string over several lines, with up to two before them that belong to
it. -/
def closing (quote : Char) (text : List Char) : Reading (List Char) text :=
  match text with
  | a :: b :: c :: rest =>
    if a = quote ∧ b = quote ∧ c = quote then
      some (((moreQuotes quote 2 c rest).after b).after a)
    else none
  | _ => none

def lineBreak (text : List Char) : Reading Unit text :=
  match text with
  | '\n' :: rest => some (.first '\n' rest ())
  | '\r' :: '\n' :: rest => some ((Taken.first '\n' rest ()).after '\r')
  | _ => none

def isSpace (c : Char) : Bool := c = ' ' || c = '\t'

def skipSpaces (text : List Char) : List Char := text.dropWhile isSpace

theorem length_skipSpaces_le (text : List Char) : (skipSpaces text).length ≤ text.length :=
  (List.dropWhile_suffix _).length_le

def skipLines (text : List Char) : List Char :=
  match text with
  | [] => []
  | c :: rest =>
    if isSpace c then skipLines rest
    else
      match lineBreak (c :: rest) with
      | none => c :: rest
      | some taken => skipLines taken.rest
termination_by text.length
decreasing_by
  · exact Nat.lt_succ_self _
  · exact taken.shorter

theorem length_skipLines_le (text : List Char) : (skipLines text).length ≤ text.length := by
  fun_induction skipLines text with
  | case1 => exact Nat.le_refl _
  | case2 c rest _ ih => exact Nat.le_succ_of_le ih
  | case3 => exact Nat.le_refl _
  | case4 c rest _ taken _ ih => exact Nat.le_of_lt (Nat.lt_of_le_of_lt ih taken.shorter)

/-- A backslash at the end of a line hides the line break and all spaces and breaks after it. -/
def hiddenBreak (text : List Char) : Reading Unit text :=
  match text with
  | '\\' :: rest =>
    (lineBreak (skipSpaces rest)).map fun taken =>
      ((taken.thenSkip skipLines length_skipLines_le).widen (length_skipSpaces_le rest)).after '\\'
  | _ => none

def basicLines (text : List Char) : Reading (List Char) text :=
  match text with
  | [] => none
  | c :: rest =>
    match closing '"' (c :: rest) with
    | some done => some done
    | none =>
      match lineBreak (c :: rest) with
      | some taken =>
        (basicLines taken.rest).map fun others => taken.join (fun _ cs => '\n' :: cs) others
      | none =>
        match hiddenBreak (c :: rest) with
        | some taken => (basicLines taken.rest).map fun others => taken.join (fun _ cs => cs) others
        | none =>
          if c = '\\' then
            match escaped rest with
            | none => none
            | some char =>
              (basicLines char.rest).map fun others => (char.join List.cons others).after c
          else if isPrintable c then
            (basicLines rest).map fun others => (others.map (c :: ·)).after c
          else none
termination_by text.length
decreasing_by
  · exact taken.shorter
  · exact taken.shorter
  · exact Nat.lt_succ_of_lt char.shorter
  · exact Nat.lt_succ_self _

def literalLines (text : List Char) : Reading (List Char) text :=
  match text with
  | [] => none
  | c :: rest =>
    match closing '\'' (c :: rest) with
    | some done => some done
    | none =>
      match lineBreak (c :: rest) with
      | some taken =>
        (literalLines taken.rest).map fun others => taken.join (fun _ cs => '\n' :: cs) others
      | none =>
        if isPrintable c then (literalLines rest).map fun others => (others.map (c :: ·)).after c
        else none
termination_by text.length
decreasing_by
  · exact taken.shorter
  · exact Nat.lt_succ_self _

/-- A string over several lines does not begin with the line break after its opening quotes. -/
def afterFirstBreak (body : (text : List Char) → Reading (List Char) text) (text : List Char) :
    Reading (List Char) text :=
  match lineBreak text with
  | some taken => (body taken.rest).map fun cs => taken.join (fun _ cs => cs) cs
  | none => body text

def quoted (text : List Char) : Reading (List Char) text :=
  match text with
  | '"' :: '"' :: '"' :: rest =>
    (afterFirstBreak basicLines rest).map fun t => ((t.after '"').after '"').after '"'
  | '\'' :: '\'' :: '\'' :: rest =>
    (afterFirstBreak literalLines rest).map fun t => ((t.after '\'').after '\'').after '\''
  | '"' :: rest => (basicLine rest).map (·.after '"')
  | '\'' :: rest => (literalLine rest).map (·.after '\'')
  | _ => none

end ContractFixture.Toml
