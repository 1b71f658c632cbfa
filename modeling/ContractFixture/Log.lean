import ContractFixture.Json.Basic

/-! # Log records -/

namespace ContractFixture

inductive LogLevel where
  | trace
  | debug
  | warn
deriving DecidableEq, Repr

def LogLevel.name : LogLevel → String
  | .trace => "TRACE"
  | .debug => "DEBUG"
  | .warn => "WARN"

/-- An event, or the opening of the span that is named. -/
structure LogRecord where
  level : LogLevel
  span : Option String
  fields : List (String × Json)

namespace LogRecord

def event (level : LogLevel) (message : String) (fields : List (String × Json)) : LogRecord :=
  ⟨level, none, ("message", .str message) :: fields⟩

def toJson (record : LogRecord) : Json :=
  let span := match record.span with
    | none => []
    | some name => [("span", Json.str name)]
  .obj (("level", .str record.level.name) :: span ++ [("fields", .obj record.fields)])

end LogRecord

end ContractFixture
