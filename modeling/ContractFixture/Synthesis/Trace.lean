import ContractFixture.Hint.Basic
import ContractFixture.Log
import ContractFixture.Text.Quoted

/-! # Traced synthesis -/

namespace ContractFixture

/-- The path leads through field names and, for the elements of a list, `[]`. -/
inductive SynthesisError where
  | unsupported (path : String) (kind : String)
  | invalidHint (path : String) (hint : String) (cause : HintError)
  | defaultOutOfRange (path : String) (value : Int) (width : IntegerWidth)
deriving DecidableEq, Repr

namespace SynthesisError

def path : SynthesisError → String
  | .unsupported path _ => path
  | .invalidHint path _ _ => path
  | .defaultOutOfRange path _ _ => path

def message : SynthesisError → String
  | .unsupported path kind => .join [path, ": unsupported type kind `", kind, "`"]
  | .invalidHint path hint cause =>
    .join [path, ": invalid annotation ", Text.quoted hint, ": ", cause.message]
  | .defaultOutOfRange path value width =>
    .join [path, ": default integer example ", toString value, " is out of range for ", width.name]

end SynthesisError

/-! ## Events -/

inductive SynthesisEvent where
  | started (root : String)
  | entered (record : String) (fields : Nat) (path : String)
  /-- A field of the record has the key of an earlier one and takes its place. -/
  | replaced (record : String) (key : String)
  | failed (error : SynthesisError)
deriving DecidableEq, Repr

def SynthesisEvent.toRecord : SynthesisEvent → LogRecord
  | .started root => ⟨.debug, some "synthesize", [("root", .str root)]⟩
  | .entered record fields path =>
    .event .debug "synthesizing structure"
      [("structure", .str record), ("fields", .int fields), ("path", .str path)]
  | .replaced record key =>
    .event .warn "duplicate wire name; later field replaces earlier"
      [("structure", .str record), ("key", .str key)]
  | .failed error => .event .warn "matcher synthesis failed" [("error", .str error.message)]

/-! ## Computations -/

structure Traced (α : Type) where
  events : List SynthesisEvent
  outcome : Except SynthesisError α

namespace Traced

variable {α β : Type}

def andThen (t : Traced α) (next : α → Traced β) : Traced β :=
  match t.outcome with
  | .ok value => ⟨t.events ++ (next value).events, (next value).outcome⟩
  | .error e => ⟨t.events, .error e⟩

instance : Monad Traced where
  pure value := ⟨[], .ok value⟩
  bind := andThen

def report (event : SynthesisEvent) : Traced Unit := ⟨[event], .ok ()⟩

def silent (outcome : Except SynthesisError α) : Traced α := ⟨[], outcome⟩

@[simp] theorem outcome_silent (o : Except SynthesisError α) : (silent o).outcome = o := rfl

@[simp] theorem outcome_report (event : SynthesisEvent) : (report event).outcome = .ok () := rfl

@[simp] theorem outcome_bind (t : Traced α) (next : α → Traced β) :
    (t >>= next).outcome = t.outcome.bind fun value => (next value).outcome := by
  change (t.andThen next).outcome = _
  unfold andThen Except.bind
  cases t.outcome <;> rfl

end Traced

end ContractFixture
