import ContractFixture.Toml.Quoted
import ContractFixture.Toml.Scalar

/-! # Reading TOML -/

namespace ContractFixture.Toml

open Text (Taken)

/-- Keys have fewer parts than this, and arrays and tables nest less deeply. -/
def nestingLimit : Nat := 80

/-! ## Comments and line ends -/

def skipComment (text : List Char) : List Char :=
  match text with
  | '#' :: rest => rest.dropWhile isPrintable
  | _ => text

theorem length_skipComment_le (text : List Char) : (skipComment text).length ≤ text.length := by
  unfold skipComment
  split
  · exact Nat.le_succ_of_le (List.dropWhile_suffix _).length_le
  · exact Nat.le_refl _

def lineEnd? (text : List Char) : Option (List Char) :=
  match skipComment (skipSpaces text) with
  | [] => some []
  | rest => (lineBreak rest).map (·.rest)

theorem length_le_of_lineEnd? {text rest : List Char} (h : lineEnd? text = some rest) :
    rest.length ≤ text.length := by
  have := length_skipSpaces_le text
  have := length_skipComment_le (skipSpaces text)
  unfold lineEnd? at h
  split at h
  · simp only [Option.some.injEq] at h
    simp [← h]
  · simp only [Option.map_eq_some_iff] at h
    obtain ⟨taken, _, rfl⟩ := h
    have := taken.shorter
    omega

def layoutBreak (text : List Char) : Reading Unit text :=
  (lineBreak (skipComment (skipSpaces text))).map fun taken =>
    (taken.widen (length_skipComment_le (skipSpaces text))).widen (length_skipSpaces_le text)

def skipLayout (text : List Char) : List Char :=
  match layoutBreak text with
  | none => skipSpaces text
  | some taken => skipLayout taken.rest
termination_by text.length
decreasing_by exact taken.shorter

theorem length_skipLayout_le (text : List Char) : (skipLayout text).length ≤ text.length := by
  fun_induction skipLayout text with
  | case1 text => exact length_skipSpaces_le text
  | case2 text taken _ ih => exact Nat.le_of_lt (Nat.lt_of_le_of_lt ih taken.shorter)

def charAfterLayout (c : Char) (text : List Char) : Reading Unit text :=
  match h : skipLayout text with
  | [] => none
  | d :: rest =>
    if d = c then
      some ((Taken.first d rest ()).widen (h ▸ length_skipLayout_le text))
    else none

def charAfterSpaces (c : Char) (text : List Char) : Reading Unit text :=
  match h : skipSpaces text with
  | [] => none
  | d :: rest =>
    if d = c then
      some ((Taken.first d rest ()).widen (h ▸ length_skipSpaces_le text))
    else none

/-! ## Keys -/

def isBareKeyChar (c : Char) : Bool := c.isAlphanum || c = '-' || c = '_'

def afterWord (text : List Char) : List Char := text.dropWhile isBareKeyChar

theorem length_afterWord_le (text : List Char) : (afterWord text).length ≤ text.length :=
  (List.dropWhile_suffix _).length_le

def keyPart (text : List Char) : Reading String text :=
  match text with
  | '"' :: rest => (basicLine rest).map fun t => (t.map String.ofList).after '"'
  | '\'' :: rest => (literalLine rest).map fun t => (t.map String.ofList).after '\''
  | c :: rest =>
    if isBareKeyChar c then
      some ((Taken.first c rest (String.ofList (c :: rest.takeWhile isBareKeyChar))).thenSkip
        afterWord length_afterWord_le)
    else none
  | [] => none

def keyParts (text : List Char) : Reading (List String) text :=
  match keyPart (skipSpaces text) with
  | none => none
  | some found =>
    let part := found.widen (length_skipSpaces_le text)
    match charAfterSpaces '.' part.rest with
    | none => some ((part.map ([·])).thenSkip skipSpaces length_skipSpaces_le)
    | some point =>
      (keyParts point.rest).map fun others =>
        part.join List.cons (point.join (fun _ parts => parts) others)
termination_by text.length
decreasing_by exact Nat.lt_trans point.shorter part.shorter

def key (text : List Char) : Reading (List String × String) text :=
  (keyParts text).bind fun parts =>
    if nestingLimit ≤ parts.value.length then none
    else match parts.value.getLast? with
      | none => none
      | some last => some (parts.map fun all => (all.dropLast, last))

/-! ## Values -/

/-- The run of scalar characters at the front of a text. A date and the time of that day may have a
space between them. -/
def scalar (text : List Char) : Reading Item text :=
  let run := text.takeWhile isScalarChar
  let rest := text.dropWhile isScalarChar
  let found : Option (Item × List Char) :=
    match rest with
    | ' ' :: after =>
      let time := after.takeWhile isScalarChar
      if isDate run && isTime true time then
        some (.dateTime (String.ofList (run ++ ' ' :: time)), after.dropWhile isScalarChar)
      else (scalar? run).map fun item => (item, rest)
    | _ => (scalar? run).map fun item => (item, rest)
  match found with
  | none => none
  | some (item, rest) =>
    if h : rest.length < text.length then some ⟨item, rest, h⟩ else none

def moreItems (item : (text : List Char) → Reading Item text) (text : List Char) :
    Reading (List Item) text :=
  match charAfterLayout ']' text with
  | some bracket => some (bracket.map fun _ => [])
  | none =>
    match charAfterLayout ',' text with
    | none => none
    | some comma =>
      match charAfterLayout ']' comma.rest with
      | some bracket => some (comma.join (fun _ _ => []) bracket)
      | none =>
        match item (skipLayout comma.rest) with
        | none => none
        | some found =>
          let first := found.widen (length_skipLayout_le comma.rest)
          (moreItems item first.rest).map fun others =>
            comma.join (fun _ items => items) (first.join List.cons others)
termination_by text.length
decreasing_by exact Nat.lt_trans first.shorter comma.shorter

def items (item : (text : List Char) → Reading Item text) (text : List Char) :
    Reading (List Item) text :=
  match charAfterLayout ']' text with
  | some bracket => some (bracket.map fun _ => [])
  | none =>
    match item (skipLayout text) with
    | none => none
    | some found =>
      let first := found.widen (length_skipLayout_le text)
      (moreItems item first.rest).map fun others => first.join List.cons others

def pair (item : (text : List Char) → Reading Item text) (text : List Char) :
    Reading (List String × String × Item) text :=
  match key text with
  | none => none
  | some name =>
    match charAfterSpaces '=' name.rest with
    | none => none
    | some equals =>
      (item (skipSpaces equals.rest)).map fun found =>
        let value := found.widen (length_skipSpaces_le equals.rest)
        name.join (fun parts v => (parts.1, parts.2, v)) (equals.join (fun _ v => v) value)

def morePairs (item : (text : List Char) → Reading Item text) (text : List Char) :
    Reading (List (List String × String × Item)) text :=
  match charAfterSpaces '}' text with
  | some brace => some (brace.map fun _ => [])
  | none =>
    match charAfterSpaces ',' text with
    | none => none
    | some comma =>
      match pair item comma.rest with
      | none => none
      | some first =>
        (morePairs item first.rest).map fun others =>
          comma.join (fun _ pairs => pairs) (first.join List.cons others)
termination_by text.length
decreasing_by exact Nat.lt_trans first.shorter comma.shorter

def pairs (item : (text : List Char) → Reading Item text) (text : List Char) :
    Reading (List (List String × String × Item)) text :=
  match charAfterSpaces '}' text with
  | some brace => some (brace.map fun _ => [])
  | none =>
    match pair item text with
    | none => none
    | some first => (morePairs item first.rest).map fun others => first.join List.cons others

def inlineTable? (found : List (List String × String × Item)) : Option Item :=
  (found.foldlM (fun entries (path, last, value) => assign path last value .inline entries)
    ([] : Entries)).map (.table .inline)

/-- One value; arrays and tables in it may nest `allowance` deep. -/
def value (allowance : Nat) (text : List Char) : Reading Item text :=
  match text with
  | [] => none
  | '[' :: rest =>
    match allowance with
    | 0 => none
    | left + 1 => (items (value left) rest).map fun found => (found.map Item.array).after '['
  | '{' :: rest =>
    match allowance with
    | 0 => none
    | left + 1 => (pairs (value left) rest).bind fun found =>
        (inlineTable? found.value).map fun table => (found.map fun _ => table).after '{'
  | c :: rest =>
    if c = '"' ∨ c = '\'' then
      (quoted (c :: rest)).map fun t => t.map fun cs => .string (String.ofList cs)
    else scalar (c :: rest)

/-! ## Lines -/

def bracket (text : List Char) : Reading Unit text :=
  match text with
  | ']' :: rest => some (.first ']' rest ())
  | _ => none

def header (text : List Char) : Reading (List String × String) text :=
  (key text).bind fun name =>
    (bracket name.rest).map fun close => name.join (fun parts _ => parts) close

def statement (text : List Char) : Reading Statement text :=
  match text with
  | '[' :: '[' :: rest =>
    (header rest).bind fun name =>
      (bracket name.rest).map fun close =>
        ((name.join (fun parts _ => Statement.element parts.1 parts.2) close).after '[').after '['
  | '[' :: rest =>
    (header rest).map fun name =>
      (name.map fun parts => Statement.table parts.1 parts.2).after '['
  | line =>
    (pair (value (nestingLimit - 1)) line).map fun found =>
      found.map fun entry => Statement.pair entry.1 entry.2.1 entry.2.2

def line (text : List Char) : Reading Statement text :=
  match statement text with
  | none => none
  | some found =>
    match h : lineEnd? found.rest with
    | none => none
    | some after => some (found.skipTo after (length_le_of_lineEnd? h))

def emptyLine (text : List Char) : Reading Unit text :=
  match lineEnd? text with
  | none => none
  | some after => if h : after.length < text.length then some ⟨(), after, h⟩ else none

def statements? (text : List Char) : Option (List Statement) :=
  if (skipSpaces text).isEmpty then some []
  else
    match emptyLine text with
    | some blank => statements? blank.rest
    | none =>
      match line (skipSpaces text) with
      | none => none
      | some found =>
        let first := found.widen (length_skipSpaces_le text)
        (statements? first.rest).map (first.value :: ·)
termination_by text.length
decreasing_by
  · exact blank.shorter
  · exact first.shorter

def withoutMark (text : List Char) : List Char :=
  match text with
  | '\ufeff' :: rest => rest
  | _ => text

def parse? (text : String) : Option Entries :=
  (statements? (withoutMark text.toList)).bind Entries.ofStatements?

end ContractFixture.Toml
