/-! # Paths -/

namespace ContractFixture

/-- The address of values in a document. -/
structure Path where
  text : String
deriving DecidableEq, Repr

namespace Path

def rootText : String := "$.body"

def root : Path := ⟨rootText⟩

instance : Inhabited Path := ⟨root⟩

def member (path : Path) (name : String) : Path := ⟨path.text ++ "." ++ name⟩

def items (path : Path) : Path := ⟨path.text ++ "[*]"⟩

def isRoot (path : Path) : Bool := path.text == rootText

instance : Ord Path := ⟨fun a b => compare a.text b.text⟩

inductive Step where
  | member (name : String)
  | items
deriving DecidableEq, Repr

def step (path : Path) : Step → Path
  | .member name => path.member name
  | .items => path.items

def follow (path : Path) (steps : List Step) : Path := steps.foldl step path

end Path

end ContractFixture
