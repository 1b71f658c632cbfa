/-! # Why a text is no document -/

namespace ContractFixture

inductive ReadFault where
  | endInValue
  | endInString
  | endInList
  | endInObject
  | expectedValue
  | expectedWord
  | invalidNumber
  | numberOutOfRange
  | controlCharacter
  | invalidEscape
  | loneSurrogate
  | unfinishedSurrogate
  | expectedCommaOrBracket
  | expectedCommaOrBrace
  | expectedColon
  | trailingComma
  | keyNotString
  | tooDeep
  | trailingCharacters
deriving DecidableEq, Repr

def ReadFault.message : ReadFault → String
  | .endInValue => "EOF while parsing a value"
  | .endInString => "EOF while parsing a string"
  | .endInList => "EOF while parsing a list"
  | .endInObject => "EOF while parsing an object"
  | .expectedValue => "expected value"
  | .expectedWord => "expected ident"
  | .invalidNumber => "invalid number"
  | .numberOutOfRange => "number out of range"
  | .controlCharacter => "control character (\\u0000-\\u001F) found while parsing a string"
  | .invalidEscape => "invalid escape"
  | .loneSurrogate => "lone leading surrogate in hex escape"
  | .unfinishedSurrogate => "unexpected end of hex escape"
  | .expectedCommaOrBracket => "expected `,` or `]`"
  | .expectedCommaOrBrace => "expected `,` or `\x7d`"
  | .expectedColon => "expected `:`"
  | .trailingComma => "trailing comma"
  | .keyNotString => "key must be a string"
  | .tooDeep => "recursion limit exceeded"
  | .trailingCharacters => "trailing characters"

def ReadFault.isEnd : ReadFault → Bool
  | .endInValue | .endInString | .endInList | .endInObject => true
  | _ => false

/-- A place in a text: the line, counted from 1, and the bytes of that line that lie before it. -/
structure Place where
  line : Nat
  column : Nat
deriving DecidableEq, Repr

def Place.advance (place : Place) (bytes : Nat) : List Char → Place
  | [] => place
  | c :: rest =>
    if bytes = 0 then place
    else if c = '\n' then advance ⟨place.line + 1, 0⟩ (bytes - 1) rest
    else if c.utf8Size ≤ bytes then
      advance ⟨place.line, place.column + c.utf8Size⟩ (bytes - c.utf8Size) rest
    else ⟨place.line, place.column + bytes⟩

def Place.atByte (text : List Char) (bytes : Nat) : Place := advance ⟨1, 0⟩ bytes text

structure ReadError where
  fault : ReadFault
  place : Place
deriving DecidableEq, Repr

namespace ReadError

def detail (e : ReadError) : String :=
  .join [e.fault.message, " at line ", toString e.place.line, " column ", toString e.place.column]

def message (e : ReadError) : String :=
  .join ["malformed document at line ", toString e.place.line, ", column ",
    toString e.place.column, ": ", e.detail]

end ReadError

end ContractFixture
