import ContractFixture.Synthesis.Defaults
import ContractFixture.Toml.Reader

/-! # Default examples from a configuration text -/

namespace ContractFixture.Defaults

def fillOnce {α : Type} (setting : Option α) (value : α) : Option (Option α) :=
  match setting with
  | some _ => none
  | none => some (some value)

/-- Takes up one entry. A double may be written as an integer. -/
def Draft.addEntry (draft : Draft) (entry : String × Toml.Item) : Option Draft :=
  match Setting.ofName? entry.1, entry.2 with
  | none, _ => some draft
  | some .string, .string text => do return { draft with string := ← fillOnce draft.string text }
  | some .boolean, .boolean b => do return { draft with boolean := ← fillOnce draft.boolean b }
  | some .integer, .integer n => do return { draft with integer := ← fillOnce draft.integer n }
  | some .float, .float x => do return { draft with float := ← fillOnce draft.float x }
  | some .float, .integer n => do
    return { draft with float := ← fillOnce draft.float (Float.ofInt n) }
  | some .minItems, .integer n =>
    if 0 ≤ n then do
      return { draft with minItems := ← fillOnce draft.minItems (UInt64.ofNat n.toNat) }
    else none
  | some _, _ => none

def ofToml (text : String) : Except DefaultsError Defaults :=
  match (Toml.parse? text).bind fun entries => entries.foldlM Draft.addEntry {} with
  | none => .error .malformedText
  | some draft => do
    let d := draft.finish
    d.validate
    return d

/-- The settings in a file with these contents, which are `none` if the file cannot be read. -/
def ofFile (contents : Option String) : Except DefaultsError Defaults :=
  match contents with
  | none => .error .unreadableFile
  | some text => ofToml text

end ContractFixture.Defaults
