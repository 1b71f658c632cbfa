import ContractFixture.Json.Basic

/-! # Templates -/

namespace ContractFixture

/-- A tree of values and matchers. Maps and objects list their entries in key order. -/
inductive Template where
  /-- JSON in which nothing is interpreted. -/
  | literal (value : Json)
  | map (entries : List (String × Template))
  | list (items : List Template)
  | like (contents : Template)
  | pattern (sample : String) (form : String)
  /-- Actual lists have at least `min` elements, or at most `max` if that is not zero. -/
  | each (contents : Template) (min : UInt64) (max : UInt64)
  | rawText (text : String)
  | object (fields : List (String × Template))

instance : Inhabited Template := ⟨.literal .null⟩

namespace Template

def null : Template := .literal .null

def ofString (text : String) : Template := .literal (.str text)

def mapOf (entries : List (String × Template)) : Template := .map (Keyed.ofList entries)

/-! ## Comparison -/

mutual

def agrees : Template → Template → Bool
  | .literal a, .literal b => a == b
  | .map a, .map b => entriesAgree a b
  | .list a, .list b => itemsAgree a b
  | .like a, .like b => agrees a b
  | .pattern a p, .pattern b q => a == b && p == q
  | .each a m n, .each b k l => agrees a b && m == k && n == l
  | .rawText a, .rawText b => a == b
  | .object a, .object b => entriesAgree a b
  | _, _ => false

def itemsAgree : List Template → List Template → Bool
  | [], [] => true
  | a :: as, b :: bs => agrees a b && itemsAgree as bs
  | _, _ => false

def entriesAgree : List (String × Template) → List (String × Template) → Bool
  | [], [] => true
  | (k, a) :: as, (l, b) :: bs => k == l && agrees a b && entriesAgree as bs
  | _, _ => false

end

instance : BEq Template := ⟨agrees⟩

/-! ## Well-formed templates -/

mutual

/-- Every literal is canonical, and every map and object has its entries in key order. -/
def WellFormed : Template → Prop
  | .literal value => value.IsCanonical
  | .map entries => Keyed.Sorted entries ∧ WellFormedEntries entries
  | .list items => WellFormedItems items
  | .like contents => WellFormed contents
  | .pattern _ _ => True
  | .each contents _ _ => WellFormed contents
  | .rawText _ => True
  | .object fields => Keyed.Sorted fields ∧ WellFormedEntries fields

def WellFormedItems : List Template → Prop
  | [] => True
  | item :: rest => WellFormed item ∧ WellFormedItems rest

def WellFormedEntries : List (String × Template) → Prop
  | [] => True
  | (_, value) :: rest => WellFormed value ∧ WellFormedEntries rest

end

end Template

end ContractFixture
