import ContractFixture.Proofs.Synthesis.Clashes

/-! # Warnings of synthesis -/

namespace ContractFixture

/-! ## What warnings say -/

def Schema.Clash.warning (clash : Clash) : LogRecord :=
  .event .warn "duplicate wire name; later field replaces earlier"
    [("structure", .str clash.record), ("key", .str clash.key)]

def SynthesisError.warning (e : SynthesisError) : LogRecord :=
  .event .warn "matcher synthesis failed" [("error", .str e.message)]

namespace SynthesisEvent

def warning? : SynthesisEvent → Option LogRecord
  | .replaced record key => some (Schema.Clash.warning ⟨record, key⟩)
  | .failed e => some e.warning
  | .started _ | .entered _ _ _ => none

/-- The records of these events that are warnings. -/
def warnings (events : List SynthesisEvent) : List LogRecord :=
  (events.map toRecord).filter (·.level = .warn)

theorem warnings_cons (event : SynthesisEvent) (rest : List SynthesisEvent) :
    warnings (event :: rest) = event.warning?.toList ++ warnings rest := by
  cases event <;> rfl

theorem warnings_append (events others : List SynthesisEvent) :
    warnings (events ++ others) = warnings events ++ warnings others := by
  simp [warnings]

end SynthesisEvent

/-! ## Computations that warn -/

namespace Traced

open Schema (Clash)
open SynthesisEvent (warnings warnings_cons warnings_append)

variable {α β : Type}

/-- All warnings of the computation are of clashes: of all of these if it succeeds, and else of the
first of them. -/
def Warns (t : Traced α) (clashes : List Clash) : Prop :=
  ∃ told, warnings t.events = told.map Clash.warning ∧ told <+: clashes ∧
    ∀ value, t.outcome = .ok value → told = clashes

theorem warns_pure (value : α) : (pure value : Traced α).Warns [] :=
  ⟨[], rfl, List.prefix_refl [], fun _ _ => rfl⟩

theorem warns_silent (outcome : Except SynthesisError α) : (silent outcome).Warns [] :=
  ⟨[], rfl, List.prefix_refl [], fun _ _ => rfl⟩

theorem warns_report {event : SynthesisEvent} {clashes : List Clash}
    (h : event.warning?.toList = clashes.map Clash.warning) : (report event).Warns clashes := by
  refine ⟨clashes, ?_, List.prefix_refl clashes, fun _ _ => rfl⟩
  change warnings [event] = _
  rw [warnings_cons, h]
  exact List.append_nil _

theorem Warns.bind {t : Traced α} {next : α → Traced β} {before after : List Clash}
    (first : t.Warns before) (second : ∀ value, (next value).Warns after) :
    (t >>= next).Warns (before ++ after) := by
  obtain ⟨told, warned, part, all⟩ := first
  change (t.andThen next).Warns _
  unfold andThen
  cases outcome : t.outcome with
  | error e => exact ⟨told, warned, part.trans (List.prefix_append ..), nofun⟩
  | ok value =>
    obtain ⟨told', warned', part', all'⟩ := second value
    obtain rfl := all value outcome
    refine ⟨told ++ told', ?_, (List.prefix_append_right_inj _).mpr part', fun result made => ?_⟩
    · rw [warnings_append, List.map_append, warned, warned']
    · rw [all' result made]

theorem Warns.map {t : Traced α} {clashes : List Clash} (h : t.Warns clashes) (f : α → β) :
    (do return f (← t)).Warns clashes := by
  simpa using h.bind fun value => warns_pure (f value)

end Traced

/-! ## The walk -/

namespace Synthesis

open Traced

variable {d : Defaults}

theorem fieldTemplates_warns {fields : List (Field Schema)}
    (types : ∀ f ∈ fields, ∀ hint path, (templateAt d hint path f.type).Warns f.type.clashes)
    (record path : String) {sofar : List (String × Template)} {earlier : List String}
    (keys : ∀ key, (Keyed.get? key sofar).isSome ↔ key ∈ earlier) :
    (fieldTemplates d record path sofar fields).Warns
      (Schema.fieldClashes record earlier fields) := by
  -- The templates that were made before stand at the earlier keys.
  induction fields generalizing sofar earlier with
  | nil =>
    rw [fieldTemplates, Schema.fieldClashes]
    exact warns_pure sofar
  | cons f rest ih =>
    obtain ⟨first, others⟩ := List.forall_mem_cons.mp types
    rw [fieldTemplates, Schema.fieldClashes_cons, List.append_assoc]
    refine (warns_silent _).bind fun hint => (first hint _).bind fun template => ?_
    have later : ∀ key, (Keyed.get? key (Keyed.insert f.key template sofar)).isSome ↔
        key ∈ f.key :: earlier := by
      intro key
      rw [Keyed.get?_insert, List.mem_cons, ← keys key]
      split <;> simp [*]
    have next := ih others later
    dsimp only
    split
    · rename_i found
      rw [if_pos ((keys f.key).mp found)]
      have told : (report (.replaced record f.key)).Warns [⟨record, f.key⟩] := warns_report rfl
      exact told.bind fun _ => next
    · rename_i new
      rw [if_neg fun again => new ((keys f.key).mpr again)]
      exact next

theorem templateAt_warns (s : Schema) (hint : Hint) (path : String) :
    (templateAt d hint path s).Warns s.clashes := by
  induction s generalizing hint path with
  | pointer target ih =>
    rw [templateAt, Schema.clashes]
    exact ih hint path
  | sequence element ih | array element _ ih =>
    rw [templateAt, Schema.clashes]
    exact (ih {} _).map _
  | record name fields ih =>
    rw [templateAt, Schema.clashes]
    have entered : (report (.entered name fields.length path)).Warns [] := warns_report rfl
    refine entered.bind fun _ => ?_
    exact (fieldTemplates_warns ih name path (by simp [Keyed.get?])).map _
  | string | boolean | float _ =>
    rw [templateAt, Schema.clashes]
    exact warns_pure _
  | integer _ | map _ _ | any | foreign _ =>
    rw [templateAt, Schema.clashes]
    exact warns_silent _

end Synthesis

/-! ## The log -/

namespace Schema

theorem templateLog_of_ok {s : Schema} {d : Defaults} {t : Template} (made : s.template d = .ok t) :
    s.templateLog d = .started s.rootLabel :: (s.synthesis d).events := by
  rw [template] at made
  rw [templateLog, made, List.append_nil]

theorem templateLog_of_error {s : Schema} {d : Defaults} {e : SynthesisError}
    (failed : s.template d = .error e) :
    s.templateLog d = .started s.rootLabel :: (s.synthesis d).events ++ [.failed e] := by
  rw [template] at failed
  rw [templateLog, failed]

def warnings (s : Schema) (d : Defaults) : List LogRecord :=
  SynthesisEvent.warnings (s.templateLog d)

/-- If a template is made, the warnings are one for each clash. If none is made, the error is the
last warning and ends the log, and before it come the first of the clashes. -/
theorem warnings_tell_clashes (s : Schema) (d : Defaults) :
    (∀ t, s.template d = .ok t →
      s.warnings d = s.clashes.map Clash.warning ∧
        (s.warnings d = [] ↔ t.objectEntries.length = s.keys.length)) ∧
    ∀ e, s.template d = .error e →
      ((s.templateLog d).map SynthesisEvent.toRecord).getLast? = some e.warning ∧
        ∃ told, told <+: s.clashes ∧ s.warnings d = told.map Clash.warning ++ [e.warning] := by
  obtain ⟨told, warned, part, all⟩ : (s.synthesis d).Warns s.clashes :=
    Synthesis.templateAt_warns s {} s.rootLabel
  constructor
  · intro t made
    have reported : s.warnings d = s.clashes.map Clash.warning := by
      rw [warnings, templateLog_of_ok made, SynthesisEvent.warnings_cons, warned, all t made]
      rfl
    refine ⟨reported, ?_⟩
    rw [reported, List.map_eq_nil_iff]
    exact (Synthesis.made_of_template made).covers.eq_iff.symm
  · intro e failed
    have log := templateLog_of_error failed
    constructor
    · rw [log, List.map_append, List.map_singleton, List.getLast?_concat]
      rfl
    · refine ⟨told, part, ?_⟩
      rw [warnings, log, SynthesisEvent.warnings_append, SynthesisEvent.warnings_cons, warned]
      rfl

def ticket (place : Schema) : Schema :=
  let seat := .record "Seat" [⟨"row", none, .boolean, none⟩, ⟨"line", some "row", .boolean, none⟩]
  .record "Ticket" [⟨"seat", none, seat, none⟩, ⟨"place", some "seat", place, none⟩]

theorem warnings_of_ticket :
    (∃ t, (ticket .boolean).template {} = .ok t ∧
      (ticket .boolean).warnings {} =
        [Clash.warning ⟨"Seat", "row"⟩, Clash.warning ⟨"Ticket", "seat"⟩] ∧
      t.objectEntries.length ≠ 4) ∧
    (ticket .any).template {} = .error (.unsupported "Ticket.place" "any") ∧
    ∃ told, told <+: (ticket .any).clashes ∧ (ticket .any).warnings {} =
      told.map Clash.warning ++ [SynthesisError.warning (.unsupported "Ticket.place" "any")] := by
  obtain ⟨made, -⟩ := warnings_tell_clashes (ticket .boolean) {}
  obtain ⟨-, failed⟩ := warnings_tell_clashes (ticket .any) {}
  obtain ⟨warned, none⟩ := made _ rfl
  refine ⟨⟨_, rfl, warned, fun all => ?_⟩, rfl, (failed _ rfl).2⟩
  rw [warned] at none
  cases none.mpr all

end Schema

end ContractFixture
