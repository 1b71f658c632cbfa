import ContractFixture.Proofs.Fixture.Recording
import ContractFixture.Proofs.Rule.Table

/-! # Collisions -/

namespace ContractFixture

/-! ## Warnings -/

namespace LogRecord

/-- The record is an event with this message. -/
def HasMessage (record : LogRecord) (message : String) : Prop :=
  ("message", Json.str message) ∈ record.fields

def WarnsOf (record : LogRecord) (message : String) : Prop :=
  record.level = .warn ∧ record.HasMessage message

end LogRecord

def collisionMessage : String := "matching rule path collision; keeping the later rule"

/-- The warning that `later` has taken the place of `earlier`. -/
def LogRecord.collision (path : Path) (earlier later : Rule) : LogRecord :=
  .event .warn collisionMessage [("path", .str path.text), ("previous", .str earlier.label),
    ("replacement", .str later.label)]

namespace BuildEvent

theorem hasMessage_toRecord_iff {event : BuildEvent} :
    event.toRecord.HasMessage collisionMessage ↔ event.isCollision = true := by
  cases event <;> simp [LogRecord.HasMessage, toRecord, LogRecord.event, collisionMessage,
    isCollision]

theorem exists_collided_of_warn {event : BuildEvent} (warns : event.toRecord.level = .warn) :
    ∃ path earlier later, event = .collided path earlier later ∧
      event.toRecord = .collision path earlier later := by
  cases event with
  | collided path earlier later => exact ⟨path, earlier, later, rfl, rfl⟩
  | recorded path kind | built rules => cases warns

theorem warnsOf_toRecord_iff {event : BuildEvent} :
    event.toRecord.WarnsOf collisionMessage ↔ event.isCollision = true := by
  rw [LogRecord.WarnsOf, hasMessage_toRecord_iff, and_iff_right_iff_imp]
  intro collides
  cases event with
  | collided path earlier later => rfl
  | recorded path kind | built rules => cases collides

theorem eq_of_collided_mem_stored {previous : Option Rule} {path place : Path}
    {rule earlier later : Rule} (h : .collided place earlier later ∈ stored previous path rule) :
    previous = some earlier ∧ earlier ≠ rule ∧ place = path ∧ later = rule := by
  unfold stored at h
  rcases List.mem_cons.mp h with recorded | h
  · cases recorded
  · cases previous with
    | none => cases h
    | some before =>
      dsimp only at h
      split at h
      · cases h
      · rename_i different
        cases List.mem_singleton.mp h
        exact ⟨rfl, different, rfl, rfl⟩

end BuildEvent

/-! ## Collisions of a recorder -/

namespace Recorder

def NoCollision (r : Recorder) : Prop := ∀ event ∈ r.log.toList, event.isCollision = false

theorem stored_noCollision_iff (previous : Option Rule) (path : Path) (rule : Rule) :
    (∀ event ∈ BuildEvent.stored previous path rule, event.isCollision = false) ↔
      ∀ before, previous = some before → before = rule := by
  cases previous with
  | none => simp [BuildEvent.stored, BuildEvent.isCollision]
  | some before =>
    by_cases same : before = rule
    · simp [BuildEvent.stored, BuildEvent.isCollision, same]
    · simp [BuildEvent.stored, BuildEvent.isCollision, same]

theorem noCollision_store_iff {r : Recorder} (h : r.recording = true) (path : Path) (rule : Rule) :
    (r.store path rule).NoCollision ↔
      r.NoCollision ∧ ∀ before, r.rules.get? path.text = some before → before = rule := by
  rw [← stored_noCollision_iff _ path]
  simp only [NoCollision, log_store h, List.mem_append, or_imp, forall_and]

/-- Storing rules causes no collision exactly if all that stood in the table stays there and every
rule that was stored stands there at the end. -/
theorem noCollision_storeAll_iff {r : Recorder} (h : r.recording = true) (path : Path)
    (visits : List Template.Visit) :
    (r.storeAll path visits).NoCollision ↔
      r.NoCollision ∧ r.rules.Within (r.storeAll path visits).rules ∧
        ∀ visit ∈ visits,
          (r.storeAll path visits).rules.get? (visit.pathFrom path).text = some visit.rule := by
  -- The invariant of the run: what stood in the table is still there at its end.
  induction visits generalizing r with
  | nil => simp [RuleTable.Within.refl]
  | cons visit rest ih =>
    have step := noCollision_store_iff h (visit.pathFrom path) visit.rule
    have run := ih ((recording_store ..).trans h :
      (r.store (visit.pathFrom path) visit.rule).recording = true)
    rw [storeAll_cons, run, step, rules_store h, List.forall_mem_cons]
    constructor
    · rintro ⟨⟨none, same⟩, within, others⟩
      obtain ⟨within, here⟩ := RuleTable.insert_within_iff.mp ⟨same, within⟩
      exact ⟨none, within, here, others⟩
    · rintro ⟨none, within, here, others⟩
      obtain ⟨same, within⟩ := RuleTable.insert_within_iff.mpr ⟨within, here⟩
      exact ⟨⟨none, same⟩, within, others⟩

/-- What stands in the table and what was warned of is from these visits. -/
structure IsFrom (path : Path) (visits : List Template.Visit) (r : Recorder) : Prop where
  stored : ∀ place rule, r.rules.get? place = some rule →
    ∃ v ∈ visits, (v.pathFrom path).text = place ∧ v.rule = rule
  collided : ∀ place earlier later, .collided place earlier later ∈ r.log.toList →
    ∃ v ∈ visits, ∃ w ∈ visits, v.pathFrom path = place ∧ w.pathFrom path = place ∧
      v.rule = earlier ∧ w.rule = later ∧ earlier ≠ later

theorem IsFrom.store {path : Path} {visits : List Template.Visit} {r : Recorder}
    (h : r.IsFrom path visits) (recording : r.recording = true) {visit : Template.Visit}
    (member : visit ∈ visits) : (r.store (visit.pathFrom path) visit.rule).IsFrom path visits := by
  constructor
  · intro place rule found
    rw [rules_store recording, RuleTable.get?_insert] at found
    split at found
    · rename_i here
      exact ⟨visit, member, here.symm, Option.some.inj found⟩
    · exact h.stored place rule found
  · intro place earlier later logged
    rw [log_store recording, List.mem_append] at logged
    rcases logged with logged | logged
    · exact h.collided place earlier later logged
    · obtain ⟨before, different, rfl, rfl⟩ := BuildEvent.eq_of_collided_mem_stored logged
      obtain ⟨v, isVisit, text, rfl⟩ := h.stored _ earlier before
      exact ⟨v, isVisit, visit, member, Path.mk.injEq .. ▸ text, rfl, rfl, rfl, different⟩

theorem IsFrom.storeAll {path : Path} {visits all : List Template.Visit} {r : Recorder}
    (h : r.IsFrom path all) (recording : r.recording = true) (members : ∀ v ∈ visits, v ∈ all) :
    (r.storeAll path visits).IsFrom path all := by
  induction visits generalizing r with
  | nil => exact h
  | cons visit rest ih =>
    obtain ⟨first, others⟩ := List.forall_mem_cons.mp members
    rw [storeAll_cons]
    exact ih (h.store recording first) (by rwa [recording_store]) others

end Recorder

/-! ## Collisions of a template -/

namespace Template

theorem no_collision_event_iff (t : Template) :
    (∀ event ∈ t.buildLog, event.isCollision = false) ↔
      ∀ visit ∈ t.visits, t.fixture.rules.get? visit.path.text = some visit.rule := by
  have run := Recorder.noCollision_storeAll_iff (r := .start) rfl .root t.visits
  have log : (∀ event ∈ t.buildLog, event.isCollision = false) ↔
      (Recorder.start.storeAll .root t.visits).NoCollision := by
    rw [buildLog_eq, List.forall_mem_append]
    simp [Recorder.NoCollision, BuildEvent.isCollision]
  rw [log, run, rules_fixture]
  have start : Recorder.start.NoCollision := fun event member => absurd member (List.not_mem_nil)
  have empty : Recorder.start.rules.Within (Recorder.start.storeAll .root t.visits).rules :=
    fun _ _ h => nomatch h
  simp only [start, empty, true_and]
  rfl

theorem visits_of_collided {t : Template} {place : Path} {earlier later : Rule}
    (logged : .collided place earlier later ∈ t.buildLog) :
    ∃ v ∈ t.visits, ∃ w ∈ t.visits, v.path = place ∧ w.path = place ∧
      v.rule = earlier ∧ w.rule = later ∧ earlier ≠ later := by
  have start : Recorder.start.IsFrom .root t.visits := ⟨nofun, nofun⟩
  have run := start.storeAll rfl fun v member => member
  rw [buildLog_eq, List.mem_append, List.mem_singleton] at logged
  rcases logged with logged | built
  · exact run.collided place earlier later logged
  · cases built

/-- No collision is warned of exactly if every matcher finds its rule in the table at its path. A
warning tells of two different rules at one path, in full. -/
theorem no_collision_iff_every_rule_stands (t : Template) :
    ((∀ record ∈ t.buildLog.map BuildEvent.toRecord, ¬ record.WarnsOf collisionMessage) ↔
      ∀ visit ∈ t.visits, t.fixture.rules.get? visit.path.text = some visit.rule) ∧
    ∀ record ∈ t.buildLog.map BuildEvent.toRecord, record.level = .warn →
      ∃ v ∈ t.visits, ∃ w ∈ t.visits, v.path = w.path ∧ v.rule ≠ w.rule ∧
        record = .collision w.path v.rule w.rule := by
  constructor
  · rw [← no_collision_event_iff, List.forall_mem_map]
    simp only [BuildEvent.warnsOf_toRecord_iff, Bool.not_eq_true]
  · rw [List.forall_mem_map]
    intro event logged warns
    obtain ⟨place, earlier, later, rfl, shown⟩ := BuildEvent.exists_collided_of_warn warns
    obtain ⟨v, isVisit, w, isVisit', here, here', rfl, rfl, different⟩ := visits_of_collided logged
    exact ⟨v, isVisit, w, isVisit', here.trans here'.symm, different, by rw [shown, here']⟩

def twoKinds : Template := .map [("p", .list [.like (.literal (.int 1)), .pattern "a" "b"])]

theorem collision_in_twoKinds :
    LogRecord.collision ⟨"$.body.p[*]"⟩ .byType (.byPattern "b") ∈
        twoKinds.buildLog.map BuildEvent.toRecord ∧
      (∃ v ∈ twoKinds.visits, ∃ w ∈ twoKinds.visits, v.path = w.path ∧ v.rule ≠ w.rule) ∧
      ∃ visit ∈ twoKinds.visits, twoKinds.fixture.rules.get? visit.path.text ≠ some visit.rule := by
  have logged : .collided ⟨"$.body.p[*]"⟩ .byType (.byPattern "b") ∈ twoKinds.buildLog := by
    decide +kernel
  have shown : LogRecord.collision ⟨"$.body.p[*]"⟩ .byType (.byPattern "b") ∈
      twoKinds.buildLog.map BuildEvent.toRecord := List.mem_map.mpr ⟨_, logged, rfl⟩
  obtain ⟨silent, told⟩ := no_collision_iff_every_rule_stands twoKinds
  obtain ⟨v, isVisit, w, isVisit', same, different, -⟩ := told _ shown rfl
  refine ⟨shown, ⟨v, isVisit, w, isVisit', same, different⟩, ?_⟩
  by_contra! all
  exact silent.mpr all _ shown ⟨rfl, List.mem_cons_self ..⟩

end Template

end ContractFixture
