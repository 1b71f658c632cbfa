import ContractFixture.Json.Numeral

/-!
# The grammar of documents

Relations between a text and what it stands for, which say nothing about how it is read. An object
has the members that are written, in their order and with their repetitions.
-/

namespace ContractFixture

/-! ## The number of a numeral -/

/-- The numeral is written as an integer from `-2 ^ 63` to `2 ^ 64 - 1`. A zero with a sign is none.
-/
structure Numeral.IsWord (n : Numeral) (value : Int) : Prop where
  no_fraction : n.fraction = none
  no_exponent : n.exponent = none
  denoted : value = if n.negative then -(Decimal.valueOfDigits n.whole : Int)
    else Decimal.valueOfDigits n.whole
  no_signed_zero : ¬ (n.negative = true ∧ value = 0)
  low : -0x8000000000000000 ≤ value
  high : value ≤ 0xFFFFFFFFFFFFFFFF

/-- The integer if it is one, and else the double that its conversion gives. A numeral of which the
conversion is infinite denotes none. -/
inductive Numeral.Denotes (n : Numeral) : Number → Prop
  | word {value : Int} (h : n.IsWord value) : Denotes n (.int value)
  | double {x : Float} (finite : x.isFinite = true) (no_word : ∀ value, ¬ n.IsWord value)
      (converted : n.float? = some x) : Denotes n (.float x finite)

namespace Json.Grammar

variable {α : Type}

/-! ## White space -/

def Blank (text : List Char) : Prop :=
  ∀ c ∈ text, c = ' ' ∨ c = '\n' ∨ c = '\t' ∨ c = '\r'

inductive Spaced (P : List Char → α → Prop) : List Char → α → Prop
  | mk {blank text : List Char} {x : α} (white : Blank blank) (inner : P text x) :
      Spaced P (blank ++ text) x

/-! ## Numerals -/

structure Digits (text : List Char) : Prop where
  ne_nil : text ≠ []
  all : ∀ c ∈ text, c.isDigit = true

inductive Sign : List Char → Bool → Prop
  | absent : Sign [] false
  | minus : Sign ['-'] true

inductive Whole : List Char → Prop
  | zero : Whole ['0']
  | digits {first : Char} {rest : List Char} (digit : first.isDigit = true)
      (no_zero : first ≠ '0') (all : ∀ c ∈ rest, c.isDigit = true) : Whole (first :: rest)

inductive Fraction : List Char → Option (List Char) → Prop
  | absent : Fraction [] none
  | point {digits : List Char} (h : Digits digits) : Fraction ('.' :: digits) (some digits)

inductive ExponentSign : List Char → Bool → Prop
  | absent : ExponentSign [] false
  | plus : ExponentSign ['+'] false
  | minus : ExponentSign ['-'] true

inductive Exponent : List Char → Option NumeralExponent → Prop
  | absent : Exponent [] none
  | letter {e : Char} {sign digits : List Char} {negative : Bool} (h : e = 'e' ∨ e = 'E')
      (signed : ExponentSign sign negative) (scaled : Digits digits) :
      Exponent (e :: sign ++ digits) (some ⟨negative, digits⟩)

inductive Numeral : List Char → ContractFixture.Numeral → Prop
  | mk {sign whole fraction exponent : List Char} {negative : Bool} {f : Option (List Char)}
      {e : Option NumeralExponent} (signed : Sign sign negative) (digits : Whole whole)
      (fractional : Fraction fraction f) (scaled : Exponent exponent e) :
      Numeral (sign ++ whole ++ fraction ++ exponent) ⟨negative, whole, f, e⟩

/-! ## Strings -/

def hexDigits : List Char :=
  ['0', '1', '2', '3', '4', '5', '6', '7', '8', '9', 'a', 'b', 'c', 'd', 'e', 'f']

def hexCapitals : List Char :=
  ['0', '1', '2', '3', '4', '5', '6', '7', '8', '9', 'A', 'B', 'C', 'D', 'E', 'F']

def HexDigit (c : Char) (value : Nat) : Prop :=
  hexDigits[value]? = some c ∨ hexCapitals[value]? = some c

inductive CodeUnit : List Char → Nat → Prop
  | mk {a b c d : Char} {i j k l : Nat} (first : HexDigit a i) (second : HexDigit b j)
      (third : HexDigit c k) (fourth : HexDigit d l) :
      CodeUnit [a, b, c, d] (((i * 16 + j) * 16 + k) * 16 + l)

def escapeLetters : List (Char × Char) :=
  [('"', '"'), ('\\', '\\'), ('/', '/'), ('b', '\x08'), ('f', '\x0c'), ('n', '\n'), ('r', '\r'),
    ('t', '\t')]

/-- What follows a backslash, and the character for which it stands. The code point of a character
is never a surrogate. -/
inductive Escape : List Char → Char → Prop
  | letter {l c : Char} (h : (l, c) ∈ escapeLetters) : Escape [l] c
  | unit {text : List Char} {c : Char} (h : CodeUnit text c.toNat) : Escape ('u' :: text) c
  | pair {high low : List Char} {c : Char} {m n : Nat} (first : CodeUnit high m)
      (leading : 0xD800 ≤ m ∧ m < 0xDC00) (second : CodeUnit low n)
      (trailing : 0xDC00 ≤ n ∧ n < 0xE000)
      (point : c.toNat = 0x10000 + (m - 0xD800) * 0x400 + (n - 0xDC00)) :
      Escape ('u' :: high ++ '\\' :: 'u' :: low) c

inductive Character : List Char → Char → Prop
  | raw {c : Char} (no_control : 0x20 ≤ c.toNat) (no_quote : c ≠ '"') (no_backslash : c ≠ '\\') :
      Character [c] c
  | escaped {text : List Char} {c : Char} (h : Escape text c) : Character ('\\' :: text) c

inductive Characters : List Char → List Char → Prop
  | nil : Characters [] []
  | cons {text rest : List Char} {c : Char} {cs : List Char} (first : Character text c)
      (others : Characters rest cs) : Characters (text ++ rest) (c :: cs)

inductive Quoted : List Char → String → Prop
  | mk {text cs : List Char} (h : Characters text cs) :
      Quoted ('"' :: text ++ ['"']) (String.ofList cs)

/-! ## Containers -/

/-- What follows a piece of a container, up to and with the character that closes it. -/
inductive More (close : Char) (P : List Char → α → Prop) : List Char → List α → Prop
  | close {blank : List Char} (white : Blank blank) : More close P (blank ++ [close]) []
  | next {blank text rest : List Char} {x : α} {xs : List α} (white : Blank blank)
      (piece : P text x) (others : More close P rest xs) :
      More close P (blank ++ ',' :: text ++ rest) (x :: xs)

inductive Enclosed (close : Char) (P : List Char → α → Prop) : List Char → List α → Prop
  | empty {blank : List Char} (white : Blank blank) : Enclosed close P (blank ++ [close]) []
  | pieces {text rest : List Char} {x : α} {xs : List α} (piece : P text x)
      (others : More close P rest xs) : Enclosed close P (text ++ rest) (x :: xs)

inductive Member (P : List Char → α → Prop) : List Char → String × α → Prop
  | mk {key blank text : List Char} {name : String} {x : α} (named : Spaced Quoted key name)
      (white : Blank blank) (inner : P text x) :
      Member P (key ++ blank ++ ':' :: text) (name, x)

/-! ## Documents -/

inductive Value : List Char → Json → Prop
  | null : Value ['n', 'u', 'l', 'l'] .null
  | true : Value ['t', 'r', 'u', 'e'] (.bool true)
  | false : Value ['f', 'a', 'l', 's', 'e'] (.bool false)
  | num {text : List Char} {n : ContractFixture.Numeral} {x : Number} (written : Numeral text n)
      (denoted : n.Denotes x) : Value text (.num x)
  | str {text : List Char} {s : String} (h : Quoted text s) : Value text (.str s)
  | arr {text : List Char} {items : List Json} (h : Enclosed ']' (Spaced Value) text items) :
      Value ('[' :: text) (.arr items)
  | obj {text : List Char} {members : List (String × Json)}
      (h : Enclosed '}' (Member (Spaced Value)) text members) : Value ('{' :: text) (.obj members)

inductive Document : List Char → Json → Prop
  | mk {text blank : List Char} {document : Json} (value : Spaced Value text document)
      (white : Blank blank) : Document (text ++ blank) document

end Json.Grammar

end ContractFixture
