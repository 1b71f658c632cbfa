import ContractFixture.Template.Matcher
import ContractFixture.Template.Pattern

/-! # Matchers for common values -/

namespace ContractFixture.Matcher

def atLeast (contents : Template) (min : UInt64) : Matcher := .each contents min 0

def atMost (contents : Template) (max : UInt64) : Matcher := .each contents 0 max

def hexadecimal : Matcher := .pattern Pattern.Example.hexadecimal Pattern.hexadecimal

def integer : Matcher := .like (.literal (.int 42))

def decimal : Matcher := .like (.literal (.ofFloat 42.0))

def ipv4Address : Matcher := .pattern Pattern.Example.ipv4Address Pattern.ipAddress

/-- An address of version 6, compared by the pattern of addresses in general. -/
def ipv6Address : Matcher := .pattern Pattern.Example.ipv6Address Pattern.ipAddress

def timestamp : Matcher := .pattern Pattern.Example.timestamp Pattern.timestamp

def date : Matcher := .pattern Pattern.Example.date Pattern.date

def time : Matcher := .pattern Pattern.Example.time Pattern.time

def uuid : Matcher := .pattern Pattern.Example.uuid Pattern.uuid

def named : List (String × Matcher) :=
  [("hex_value", hexadecimal), ("identifier", integer), ("integer", integer), ("decimal", decimal),
    ("ip_address", ipv4Address), ("ipv4_address", ipv4Address), ("ipv6_address", ipv6Address),
    ("timestamp", timestamp), ("date", date), ("time", time), ("uuid", uuid)]

end ContractFixture.Matcher
