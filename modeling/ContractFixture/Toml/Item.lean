import ContractFixture.Keyed

/-!
# The contents of a TOML text

Every table remembers how it came about, because that decides whether a later line may add to it.
-/

namespace ContractFixture.Toml

inductive Origin where
  /-- It was written between braces, and is complete. -/
  | inline
  | header
  /-- The header of a table below it made it. -/
  | implied
  | dotted
deriving DecidableEq, Repr

inductive Item where
  | string (text : String)
  | integer (value : Int)
  | float (value : Float)
  | boolean (value : Bool)
  | dateTime (text : String)
  | array (items : List Item)
  | table (origin : Origin) (entries : List (String × Item))
  /-- Tables with one header for each, the latest first. -/
  | tables (elements : List (List (String × Item)))

instance : Inhabited Item := ⟨.boolean false⟩

abbrev Entries := List (String × Item)

/-! ## Defining -/

/-- Changes the table that `path` leads to, and makes the tables on the way that are not there. A
list of tables stands for its latest one. -/
def update (byDots : Bool) (edit : Origin → Entries → Option Entries) :
    (path : List String) → Origin → Entries → Option Entries
  | [], origin, entries => edit origin entries
  | key :: rest, _, entries =>
    match Keyed.get? key entries with
    | none => do
      let origin := if byDots then Origin.dotted else .implied
      return Keyed.insert key (.table origin (← update byDots edit rest origin [])) entries
    | some (.table origin inner) => do
      if origin = .inline ∨ (byDots ∧ origin = .header) then none
      else return Keyed.insert key (.table origin (← update byDots edit rest origin inner)) entries
    | some (.tables (latest :: earlier)) => do
      let latest ← update byDots edit rest .header latest
      return Keyed.insert key (.tables (latest :: earlier)) entries
    | some _ => none

def define (key : String) (value : Item) (entries : Entries) : Option Entries :=
  match Keyed.get? key entries with
  | none => some (Keyed.insert key value entries)
  | some _ => none

/-- With parts of the key before its last one the entry goes to a table made by dots, and without
them to a table that was not. -/
def assign (path : List String) (key : String) (value : Item) : Origin → Entries → Option Entries :=
  update true (fun origin entries =>
    if decide (origin = .dotted) = path.isEmpty then none else define key value entries) path

inductive Statement where
  | table (path : List String) (key : String)
  | element (path : List String) (key : String)
  | pair (path : List String) (key : String) (value : Item)

def openTable (key : String) (entries : Entries) : Option Entries :=
  match Keyed.get? key entries with
  | none => some (Keyed.insert key (.table .header []) entries)
  | some (.table .implied inner) => some (Keyed.insert key (.table .header inner) entries)
  | some _ => none

def openElement (key : String) (entries : Entries) : Option Entries :=
  match Keyed.get? key entries with
  | none => some (Keyed.insert key (.tables [[]]) entries)
  | some (.tables elements) => some (Keyed.insert key (.tables ([] :: elements)) entries)
  | some _ => none

/-- What the lines so far define, and the table that the next ones belong to. -/
structure Reached where
  root : Entries := []
  section_ : List String := []

def Reached.follow (r : Reached) : Statement → Option Reached
  | .table path key => do
    return ⟨← update false (fun _ => openTable key) path .header r.root, path ++ [key]⟩
  | .element path key => do
    return ⟨← update false (fun _ => openElement key) path .header r.root, path ++ [key]⟩
  | .pair path key value => do
    return { r with root := ← update false (assign path key value) r.section_ .header r.root }

/-- The entries that the lines define, if none of them defines a thing twice. -/
def Entries.ofStatements? (lines : List Statement) : Option Entries :=
  (lines.foldlM Reached.follow {}).map Reached.root

end ContractFixture.Toml
