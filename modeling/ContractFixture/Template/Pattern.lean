/-!
# Patterns of common texts

Regular expressions in the dialect of the verifier, which is the one to read them.
-/

namespace ContractFixture.Pattern

/-! ## Building blocks -/

def times (low high : Nat) : String :=
  "\x7b" ++ toString low ++ "," ++ toString high ++ "\x7d"

def exactly (n : Nat) : String := "\x7b" ++ toString n ++ "\x7d"

def hexDigits (n : Nat) : String := "[0-9a-f]" ++ exactly n

def group : String := "[0-9a-f]" ++ times 1 4

def groupColon : String := "(" ++ group ++ ":)"

def colonGroup : String := "(:" ++ group ++ ")"

def octet : String := "(25[0-5]|2[0-4]\\d|[0-1]?\\d?\\d)"

/-- An address of version 4 at the end of one of version 6. -/
def dottedQuad : String := octet ++ "(\\." ++ octet ++ ")" ++ exactly 3

def whole (form : String) : String := "(\\A" ++ form ++ "\\Z)"

/-! ## The patterns -/

def hexadecimal : String := "[0-9a-fA-F]+"

def ipAddress : String := "(\\d" ++ times 1 3 ++ "\\.)+\\d" ++ times 1 3

/-- The forms of an address of version 6 that ends in a group or in a double colon. -/
def ipv6Groups : List String :=
  [1, 2, 3, 4, 5, 6].map (fun n => groupColon ++ times 1 n ++ colonGroup ++ times 1 (7 - n))
    ++ ["(" ++ groupColon ++ times 1 7 ++ "|:):", ":" ++ colonGroup ++ times 1 7]

def ipv6Mixed : List String :=
  ["((" ++ groupColon ++ exactly 6 ++ ")" ++ dottedQuad ++ ")",
    "(" ++ groupColon ++ exactly 5 ++ group ++ ":" ++ dottedQuad ++ ")",
    groupColon ++ exactly 5 ++ ":" ++ group ++ ":" ++ dottedQuad]
    ++ [1, 2, 3, 4].map (fun n =>
      groupColon ++ times 1 n ++ colonGroup ++ times 1 (5 - n) ++ ":" ++ dottedQuad)
    ++ ["(" ++ groupColon ++ times 1 5 ++ "|:):" ++ dottedQuad,
      ":" ++ colonGroup ++ times 1 5 ++ ":" ++ dottedQuad]

def ipv6Address : String := "|".intercalate ((ipv6Groups ++ ipv6Mixed).map whole)

def uuid : String := "-".intercalate ([8, 4, 4, 4, 12].map hexDigits)

/-- A year, and the beginning of the group for a month, week or day of the year. -/
def calendarDay : String :=
  .join ["^([\\+-]?\\d\x7b4\x7d(?!\\d\x7b2\x7d\\b))((-?)((0[1-9]|1[0-2])(\\3([12]\\d|0[1-9]|",
    "3[01]))?|W([0-4]\\d|5[0-2])(-?[1-7])?|(00[1-9]|0[1-9]\\d|[12]\\d\x7b2\x7d|3([0-5]",
    "\\d|6[1-6])))"]

def timestamp : String :=
  .join [calendarDay,
    "([T\\s]((([01]\\d|2[0-3])((:?)[0-5]\\d)?|24\\:?00)([\\.,]\\d+(?!:))?)?(\\17[0-5]\\",
    "d([\\.,]\\d+)?)?([zZ]|([\\+-])([01]\\d|2[0-3]):?([0-5]\\d)?)?)?)?$"]

def date : String := calendarDay ++ "?)"

def time : String := "^(T\\d\\d:\\d\\d(:\\d\\d)?(\\.\\d+)?(([+-]\\d\\d:\\d\\d)|Z)?)?$"

/-! ## Examples -/

namespace Example

def hexadecimal : String := "3F"

def ipv4Address : String := "127.0.0.1"

def ipv6Address : String := "::ffff:192.0.2.128"

def uuid : String := "fc763eba-0905-41c5-a27f-3934ab26786c"

def timestamp : String := "2000-02-01T12:30:00Z"

def date : String := "2000-02-01"

def time : String := "T12:30:00"

end Example

end ContractFixture.Pattern
