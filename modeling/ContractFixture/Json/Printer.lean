import ContractFixture.Json.NumberText

/-! # Writing documents -/

namespace ContractFixture.Json

/-! ## Strings -/

def hexDigit (n : Nat) : Char := "0123456789abcdef".toList.getD n '0'

def escape (c : Char) : List Char :=
  match c with
  | '"' => ['\\', '"']
  | '\\' => ['\\', '\\']
  | '\x08' => ['\\', 'b']
  | '\t' => ['\\', 't']
  | '\n' => ['\\', 'n']
  | '\x0c' => ['\\', 'f']
  | '\r' => ['\\', 'r']
  | c =>
    if c.toNat < 0x20 then ['\\', 'u', '0', '0', hexDigit (c.toNat / 16), hexDigit (c.toNat % 16)]
    else [c]

def quote (text : String) : List Char :=
  '"' :: text.toList.flatMap escape ++ ['"']

/-! ## Compact layout -/

mutual

def compactChars : Json → List Char
  | .null => "null".toList
  | .bool true => "true".toList
  | .bool false => "false".toList
  | .num n => n.chars
  | .str text => quote text
  | .arr [] => ['[', ']']
  | .arr (item :: rest) => '[' :: compactChars item ++ compactItems rest
  | .obj [] => ['{', '}']
  | .obj ((key, value) :: rest) =>
    '{' :: quote key ++ ':' :: compactChars value ++ compactMembers rest

def compactItems : List Json → List Char
  | [] => [']']
  | item :: rest => ',' :: compactChars item ++ compactItems rest

def compactMembers : List (String × Json) → List Char
  | [] => ['}']
  | (key, value) :: rest => ',' :: quote key ++ ':' :: compactChars value ++ compactMembers rest

end

def compact (document : Json) : String := String.ofList document.compactChars

/-- A string as it is, any other document in one line. -/
def display : Json → String
  | .str text => text
  | document => document.compact

/-! ## Pretty layout -/

def newLine (level : Nat) : List Char := '\n' :: List.replicate (2 * level) ' '

mutual

def prettyChars (level : Nat) : Json → List Char
  | .arr [] => ['[', ']']
  | .arr (item :: rest) =>
    '[' :: newLine (level + 1) ++ prettyChars (level + 1) item ++ prettyItems level rest
  | .obj [] => ['{', '}']
  | .obj ((key, value) :: rest) =>
    '{' :: newLine (level + 1) ++ quote key ++ ':' :: ' ' :: prettyChars (level + 1) value
      ++ prettyMembers level rest
  | leaf => leaf.compactChars

def prettyItems (level : Nat) : List Json → List Char
  | [] => newLine level ++ [']']
  | item :: rest =>
    ',' :: newLine (level + 1) ++ prettyChars (level + 1) item ++ prettyItems level rest

def prettyMembers (level : Nat) : List (String × Json) → List Char
  | [] => newLine level ++ ['}']
  | (key, value) :: rest =>
    ',' :: newLine (level + 1) ++ quote key ++ ':' :: ' ' :: prettyChars (level + 1) value
      ++ prettyMembers level rest

end

def pretty (document : Json) : String := String.ofList (document.prettyChars 0)

end ContractFixture.Json
