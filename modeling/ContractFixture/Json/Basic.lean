import ContractFixture.Keyed

/-!
# JSON documents

A reader keeps the members of an object as they were written. `Json.canonical` orders them by key
and lets the last of several equal keys win.
-/

namespace ContractFixture

inductive Number where
  | int (value : Int)
  | float (value : Float) (finite : value.isFinite = true)

/-- Integers agree by value, doubles by their numeric value, so `0.0` and `-0.0` agree. -/
def Number.agrees : Number → Number → Bool
  | .int m, .int n => m == n
  | .float x _, .float y _ => x == y
  | _, _ => false

instance : BEq Number := ⟨Number.agrees⟩

inductive Json where
  | null
  | bool (value : Bool)
  | num (value : Number)
  | str (text : String)
  | arr (items : List Json)
  | obj (members : List (String × Json))

instance : Inhabited Json := ⟨.null⟩

namespace Json

def int (n : Int) : Json := .num (.int n)

/-- A finite double as a number. A document has no place for the others, which become `null`. -/
def ofFloat (x : Float) : Json :=
  if h : x.isFinite = true then .num (.float x h) else .null

theorem ofFloat_of_finite {x : Float} (finite : x.isFinite = true) :
    ofFloat x = .num (.float x finite) :=
  dif_pos finite

/-! ## Comparison -/

mutual

def agrees : Json → Json → Bool
  | .null, .null => true
  | .bool a, .bool b => a == b
  | .num a, .num b => a == b
  | .str a, .str b => a == b
  | .arr a, .arr b => itemsAgree a b
  | .obj a, .obj b => membersAgree a b
  | _, _ => false

def itemsAgree : List Json → List Json → Bool
  | [], [] => true
  | a :: as, b :: bs => agrees a b && itemsAgree as bs
  | _, _ => false

def membersAgree : List (String × Json) → List (String × Json) → Bool
  | [], [] => true
  | (k, a) :: as, (l, b) :: bs => k == l && agrees a b && membersAgree as bs
  | _, _ => false

end

instance : BEq Json := ⟨agrees⟩

/-! ## Canonical form -/

mutual

/-- The same document with every object's members in key order, each key once. -/
def canonical : Json → Json
  | .arr items => .arr (canonicalItems items)
  | .obj members => .obj (Keyed.ofList (canonicalMembers members))
  | leaf => leaf

def canonicalItems : List Json → List Json
  | [] => []
  | item :: rest => canonical item :: canonicalItems rest

def canonicalMembers : List (String × Json) → List (String × Json)
  | [] => []
  | (key, value) :: rest => (key, canonical value) :: canonicalMembers rest

end

mutual

/-- Every object of the document has its members in key order, each key once. -/
def IsCanonical : Json → Prop
  | .arr items => AreCanonical items
  | .obj members => Keyed.Sorted members ∧ HasCanonicalMembers members
  | _ => True

def AreCanonical : List Json → Prop
  | [] => True
  | item :: rest => IsCanonical item ∧ AreCanonical rest

def HasCanonicalMembers : List (String × Json) → Prop
  | [] => True
  | (_, value) :: rest => IsCanonical value ∧ HasCanonicalMembers rest

end

theorem isCanonical_ofFloat (x : Float) : (ofFloat x).IsCanonical := by
  unfold ofFloat
  split <;> trivial

mutual

/-- How many containers the deepest value of the document stands in, a container itself included. -/
def depth : Json → Nat
  | .arr items => itemsDepth items + 1
  | .obj members => membersDepth members + 1
  | _ => 0

def itemsDepth : List Json → Nat
  | [] => 0
  | item :: rest => max (depth item) (itemsDepth rest)

def membersDepth : List (String × Json) → Nat
  | [] => 0
  | (_, value) :: rest => max (depth value) (membersDepth rest)

end

end Json

end ContractFixture
