import ContractFixture.Fixture.Basic
import ContractFixture.Proofs.Template.Places

/-! # What the walk over a template does -/

namespace ContractFixture

namespace Recorder

@[simp] theorem recording_store (path : Path) (rule : Rule) (r : Recorder) :
    (r.store path rule).recording = r.recording := by
  unfold store
  split <;> rfl

theorem rules_store {r : Recorder} (h : r.recording = true) (path : Path) (rule : Rule) :
    (r.store path rule).rules = r.rules.insert path.text rule := by
  rw [store, if_pos h]

theorem log_store {r : Recorder} (h : r.recording = true) (path : Path) (rule : Rule) :
    (r.store path rule).log.toList =
      r.log.toList ++ BuildEvent.stored (r.rules.get? path.text) path rule := by
  rw [store, if_pos h]
  exact Array.toList_appendList

def storeAll (path : Path) (visits : List Template.Visit) (r : Recorder) : Recorder :=
  visits.foldl (fun r visit => r.store (visit.pathFrom path) visit.rule) r

@[simp] theorem storeAll_nil (path : Path) (r : Recorder) : r.storeAll path [] = r := rfl

@[simp] theorem storeAll_cons (path : Path) (visit : Template.Visit) (rest : List Template.Visit)
    (r : Recorder) :
    r.storeAll path (visit :: rest) =
      (r.store (visit.pathFrom path) visit.rule).storeAll path rest := rfl

theorem storeAll_append (path : Path) (first last : List Template.Visit) (r : Recorder) :
    r.storeAll path (first ++ last) = (r.storeAll path first).storeAll path last :=
  List.foldl_append

theorem storeAll_under (path : Path) (parent : Template) (steps : List Path.Step)
    (visits : List Template.Visit) (r : Recorder) :
    r.storeAll path (visits.map (.under parent steps)) =
      r.storeAll (path.follow steps) visits := by
  rw [storeAll, List.foldl_map]
  simp only [Template.Visit.pathFrom_under]
  rfl

end Recorder

namespace Template

open Recorder

def recordHere (path : Path) (t : Template) (r : Recorder) : Recorder :=
  r.storeAll path (Place.here t).visit?.toList

theorem storeAll_visits (path : Path) (t : Template) (r : Recorder) :
    r.storeAll path t.visits = t.children.foldl
      (fun r c => r.storeAll (path.follow c.1) (visits c.2)) (t.recordHere path r) := by
  have below : ∀ (cs : List (List Path.Step × Template)) (r : Recorder),
      r.storeAll path (cs.flatMap fun c => (visits c.2).map (.under t c.1)) =
        cs.foldl (fun r c => r.storeAll (path.follow c.1) (visits c.2)) r := by
    intro cs
    induction cs with
    | nil => exact fun _ => rfl
    | cons c rest ih =>
      intro r
      rw [List.flatMap_cons, Recorder.storeAll_append, Recorder.storeAll_under, ih, List.foldl_cons]
  rw [visits_eq, Recorder.storeAll_append, below, recordHere]

/-! ## One step of the walk -/

theorem run_build_map (entries : List (String × Template)) (path : Path) (r : Recorder) :
    ((map entries).build path).run r =
      (.obj ((buildEntries path entries).run r).1, ((buildEntries path entries).run r).2) := rfl

theorem run_build_list (items : List Template) (path : Path) (r : Recorder) :
    ((list items).build path).run r =
      (.arr ((buildItems path.items items).run r).1, ((buildItems path.items items).run r).2) := rfl

theorem run_build_like (contents : Template) (path : Path) (r : Recorder) :
    ((like contents).build path).run r =
      (contents.build path).run ((like contents).recordHere path r) := rfl

theorem run_build_each (contents : Template) (min max : UInt64) (path : Path) (r : Recorder) :
    ((each contents min max).build path).run r =
      (.arr (List.replicate (Matcher.repetitions min max).toNat
          ((contents.build path.items).run ((each contents min max).recordHere path r)).1),
        ((contents.build path.items).run ((each contents min max).recordHere path r)).2) := rfl

theorem run_build_object (fields : List (String × Template)) (path : Path) (r : Recorder) :
    ((object fields).build path).run r =
      (.obj ((buildEntries path fields).run ((object fields).recordHere path r)).1,
        ((buildEntries path fields).run ((object fields).recordHere path r)).2) := rfl

theorem run_buildItems_cons (item : Template) (rest : List Template) (path : Path) (r : Recorder) :
    (buildItems path (item :: rest)).run r =
      (((item.build path).run r).1 :: ((buildItems path rest).run ((item.build path).run r).2).1,
        ((buildItems path rest).run ((item.build path).run r).2).2) := rfl

theorem run_buildEntries_cons (e : String × Template) (rest : List (String × Template))
    (path : Path) (r : Recorder) :
    (buildEntries path (e :: rest)).run r =
      ((e.1, ((e.2.build (path.member e.1)).run r).1) ::
          ((buildEntries path rest).run ((e.2.build (path.member e.1)).run r).2).1,
        ((buildEntries path rest).run ((e.2.build (path.member e.1)).run r).2).2) := rfl

/-! ## The document -/

theorem value_buildItems {items : List Template}
    (h : ∀ item ∈ items, ∀ path r, ((item.build path).run r).1 = item.document) (path : Path)
    (r : Recorder) : ((buildItems path items).run r).1 = items.map document := by
  induction items generalizing r with
  | nil => rfl
  | cons item rest ih =>
    have first := h item (List.mem_cons_self ..) path r
    have others := ih fun other member => h other (List.mem_cons_of_mem _ member)
    rw [run_buildItems_cons, first, others, List.map_cons]

theorem value_buildEntries {entries : List (String × Template)}
    (h : ∀ e ∈ entries, ∀ path r, ((e.2.build path).run r).1 = e.2.document) (path : Path)
    (r : Recorder) :
    ((buildEntries path entries).run r).1 = entries.map fun e => (e.1, e.2.document) := by
  induction entries generalizing r with
  | nil => rfl
  | cons e rest ih =>
    have first := h e (List.mem_cons_self ..) (path.member e.1) r
    have others := ih fun other member => h other (List.mem_cons_of_mem _ member)
    rw [run_buildEntries_cons, first, others, List.map_cons]

theorem document_eq (t : Template) : t.document = ((t.build .root).run .silent).1 := rfl

theorem value_build (t : Template) (path : Path) (r : Recorder) :
    ((t.build path).run r).1 = t.document := by
  -- The document is itself what a walk gives, so both sides take the same step.
  induction t generalizing path r with
  | literal value => rfl
  | map entries ih =>
    rw [document_eq, run_build_map, run_build_map, value_buildEntries ih, value_buildEntries ih]
  | list items ih =>
    rw [document_eq, run_build_list, run_build_list, value_buildItems ih, value_buildItems ih]
  | like contents ih => rw [document_eq, run_build_like, run_build_like, ih, ih]
  | pattern sample form => rfl
  | each contents min max ih => rw [document_eq, run_build_each, run_build_each, ih, ih]
  | rawText text => rfl
  | object fields ih =>
    rw [document_eq, run_build_object, run_build_object, value_buildEntries ih,
      value_buildEntries ih]

@[simp] theorem document_literal (value : Json) : (literal value).document = value := rfl

@[simp] theorem document_map (entries : List (String × Template)) :
    (map entries).document = .obj (entries.map fun e => (e.1, e.2.document)) := by
  rw [document_eq, run_build_map, value_buildEntries fun e _ => value_build e.2]

@[simp] theorem document_list (items : List Template) :
    (list items).document = .arr (items.map document) := by
  rw [document_eq, run_build_list, value_buildItems fun item _ => value_build item]

@[simp] theorem document_like (contents : Template) :
    (like contents).document = contents.document := by
  rw [document_eq, run_build_like, value_build]

@[simp] theorem document_pattern (sample form : String) :
    (pattern sample form).document = .str sample := rfl

@[simp] theorem document_each (contents : Template) (min max : UInt64) :
    (each contents min max).document =
      .arr (List.replicate (Matcher.repetitions min max).toNat contents.document) := by
  rw [document_eq, run_build_each, value_build]

@[simp] theorem document_rawText (text : String) : (rawText text).document = .str text := rfl

@[simp] theorem document_object (fields : List (String × Template)) :
    (object fields).document = .obj (fields.map fun e => (e.1, e.2.document)) := by
  rw [document_eq, run_build_object, value_buildEntries fun e _ => value_build e.2]

/-! ## The recorder -/

theorem recorder_buildItems {items : List Template}
    (h : ∀ item ∈ items, ∀ path r, ((item.build path).run r).2 = r.storeAll path item.visits)
    (path : Path) (r : Recorder) :
    ((buildItems path items).run r).2 =
      items.foldl (fun r item => r.storeAll path item.visits) r := by
  induction items generalizing r with
  | nil => rfl
  | cons item rest ih =>
    have first := h item (List.mem_cons_self ..) path r
    have others := ih fun other member => h other (List.mem_cons_of_mem _ member)
    rw [run_buildItems_cons, first, others, List.foldl_cons]

theorem recorder_buildEntries {entries : List (String × Template)}
    (h : ∀ e ∈ entries, ∀ path r, ((e.2.build path).run r).2 = r.storeAll path e.2.visits)
    (path : Path) (r : Recorder) :
    ((buildEntries path entries).run r).2 =
      entries.foldl (fun r e => r.storeAll (path.member e.1) e.2.visits) r := by
  induction entries generalizing r with
  | nil => rfl
  | cons e rest ih =>
    have first := h e (List.mem_cons_self ..) (path.member e.1) r
    have others := ih fun other member => h other (List.mem_cons_of_mem _ member)
    rw [run_buildEntries_cons, first, others, List.foldl_cons]

/-- The walk over a template at `path` stores the rules of its visits in their order. -/
theorem recorder_build (t : Template) (path : Path) (r : Recorder) :
    ((t.build path).run r).2 = r.storeAll path t.visits := by
  induction t generalizing path r with
  | literal value => rfl
  | map entries ih =>
    rw [storeAll_visits, run_build_map, recorder_buildEntries ih, children, List.foldl_map]
    rfl
  | list items ih =>
    rw [storeAll_visits, run_build_list, recorder_buildItems ih, children, List.foldl_map]
    rfl
  | like contents ih =>
    rw [storeAll_visits, run_build_like, ih]
    rfl
  | pattern sample form => rfl
  | each contents min max ih =>
    rw [storeAll_visits, run_build_each, ih]
    rfl
  | rawText text => rfl
  | object fields ih =>
    rw [storeAll_visits, run_build_object, recorder_buildEntries ih, children, List.foldl_map]
    rfl

theorem body_fixture (t : Template) : t.fixture.body = t.document :=
  value_build t .root .start

theorem rules_fixture (t : Template) :
    t.fixture.rules = (start.storeAll .root t.visits).rules :=
  congrArg Recorder.rules (recorder_build t .root .start)

theorem buildLog_eq (t : Template) :
    t.buildLog = (start.storeAll .root t.visits).log.toList ++ [.built t.fixture.rules.size] := by
  rw [rules_fixture, ← recorder_build t .root .start]
  rfl

end Template

end ContractFixture
