import ContractFixture.Json.Printer
import ContractFixture.Json.Reader

/-! # Documents as text -/

namespace ContractFixture.Json

def maxDepth : Nat := 127

def parse (text : String) : Except ReadError Json :=
  (readRaw maxDepth text).map canonical

/-- The document that `text` writes, laid out anew: texts of one content get one layout. -/
def format (text : String) : Except ReadError String :=
  (parse text).map pretty

end ContractFixture.Json
