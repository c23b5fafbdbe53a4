import Mathlib.Data.Finset.Option
import NandTools.Log.Collector
import NandTools.Proofs.Path.Map

/-! What a collector has kept after any calls: the first events of every file, as many as are kept,
and after them a warning if there were more. -/
namespace NandTools.Collector

/-- What a collector is told. -/
inductive Call where
  | enter (path : Path) (id : Nat)
  | record (path : Path) (event : Event)

namespace Call

/-- The file that a call opens, as the steps of its path. -/
def entered? : Call → Option (List PathStep)
  | enter path _ => some path.steps
  | record .. => none

/-- The file that a call records an event for. -/
def recorded? : Call → Option (List PathStep)
  | enter .. => none
  | record path _ => some path.steps

/-- The event that a call records for a file. -/
def eventOf? (file : List PathStep) : Call → Option Event
  | enter .. => none
  | record path event => if path.steps = file then some event else none

end Call

def apply (collector : Collector) : Call → Collector
  | .enter path id => collector.enter path id
  | .record path event => collector.record path event

/-- A new collector after calls. -/
def after (calls : List Call) : Collector := calls.foldl apply empty

def entered (calls : List Call) : Finset (List PathStep) :=
  (calls.filterMap Call.entered?).toFinset

def recorded (calls : List Call) : Finset (List PathStep) :=
  (calls.filterMap Call.recorded?).toFinset

/-- All events that were recorded for a file, in their order. -/
def history (calls : List Call) (file : List PathStep) : List Event :=
  calls.filterMap (Call.eventOf? file)

/-- What is kept of the events of a file. -/
def kept (events : List Event) : List Event :=
  if events.length ≤ Limits.logEventsPerFile then events
  else events.take Limits.logEventsPerFile ++ [overflow]

section Kept

variable {events : List Event}

theorem kept_of_le (few : events.length ≤ Limits.logEventsPerFile) : kept events = events :=
  if_pos few

theorem kept_of_gt (many : Limits.logEventsPerFile < events.length) :
    kept events = events.take Limits.logEventsPerFile ++ [overflow] :=
  if_neg (Nat.not_le_of_gt many)

theorem length_kept (events : List Event) :
    (kept events).length = min events.length (Limits.logEventsPerFile + 1) := by
  by_cases few : events.length ≤ Limits.logEventsPerFile
  · rw [kept_of_le few]
    omega
  · rw [kept_of_gt (Nat.lt_of_not_le few), List.length_append, List.length_take]
    simp only [List.length_singleton]
    omega

/-- An event is kept as long as there is room. The first one after that is replaced by a warning,
and those that follow are dropped. -/
theorem toList_append {array : Array Event} (holds : array.toList = kept events) (event : Event) :
    (append event array).toList = kept (events ++ [event]) := by
  have size : array.size = min events.length (Limits.logEventsPerFile + 1) := by
    rw [← Array.length_toList, holds, length_kept]
  unfold append
  split
  · have few : (events ++ [event]).length ≤ Limits.logEventsPerFile := by simp; omega
    have before : events.length ≤ Limits.logEventsPerFile := by omega
    simp [kept_of_le few, holds, kept_of_le before]
  · have many : Limits.logEventsPerFile < (events ++ [event]).length := by simp; omega
    rw [kept_of_gt many, List.take_append_of_le_length (by omega)]
    split
    · have few : events.length = Limits.logEventsPerFile := by omega
      simp [holds, kept, few]
    · have before : Limits.logEventsPerFile < events.length := by omega
      rw [holds, kept_of_gt before]

end Kept

section Calls

variable (calls : List Call) (call : Call)

theorem after_concat : after (calls ++ [call]) = (after calls).apply call := by
  simp [after]

theorem entered_concat :
    entered (calls ++ [call]) = entered calls ∪ call.entered?.toFinset := by
  ext file
  cases found : call.entered? <;> simp [entered, found, eq_comm]

theorem recorded_concat :
    recorded (calls ++ [call]) = recorded calls ∪ call.recorded?.toFinset := by
  ext file
  cases found : call.recorded? <;> simp [recorded, found, eq_comm]

theorem history_concat (file : List PathStep) :
    history (calls ++ [call]) file = history calls file ++ (call.eventOf? file).toList := by
  cases found : call.eventOf? file <;> simp [history, found]

variable {calls}

/-- Only files that an event was recorded for have a history. -/
theorem history_of_not_recorded {file : List PathStep} (absent : file ∉ recorded calls) :
    history calls file = [] := by
  apply List.filterMap_eq_nil_iff.mpr
  intro call among
  cases call with
  | enter path id => rfl
  | record path event =>
    apply if_neg
    rintro rfl
    exact absent (List.mem_toFinset.mpr (List.mem_filterMap.mpr ⟨_, among, rfl⟩))

end Calls

/-- A collector holds what calls come to. -/
structure Keeps (collector : Collector) (calls : List Call) : Prop where
  sortedEvents : PathMap.Sorted collector.events
  sortedContexts : PathMap.Sorted collector.contexts
  recorded : (PathMap.keys collector.events).toFinset = recorded calls
  entered : (PathMap.keys collector.contexts).toFinset = entered calls
  kept : ∀ entry ∈ collector.events, entry.2.toList = kept (history calls entry.1.steps)

theorem keeps_empty : Keeps empty [] where
  sortedEvents := List.Pairwise.nil
  sortedContexts := List.Pairwise.nil
  recorded := rfl
  entered := rfl
  kept := nofun

variable {collector : Collector} {calls : List Call}

/-- What is kept for a path does not depend on its spelling, nor on the events of other files. -/
theorem Keeps.toList_fileEvents (keeps : Keeps collector calls) (path : Path) :
    (collector.fileEvents path).toList = Collector.kept (history calls path.steps) := by
  unfold fileEvents
  cases found : PathMap.find? collector.events path with
  | none =>
    have absent : path.steps ∉ Collector.recorded calls := by
      rw [← keeps.recorded, List.mem_toFinset]
      exact PathMap.find?_eq_none_iff.mp found
    simp [history_of_not_recorded absent, Collector.kept]
  | some array =>
    obtain ⟨spelled, same, among⟩ := PathMap.mem_of_find? found
    rw [← same]
    exact keeps.kept _ among

theorem Keeps.enter (keeps : Keeps collector calls) (path : Path) (id : Nat) :
    Keeps (collector.enter path id) (calls ++ [.enter path id]) where
  sortedEvents := keeps.sortedEvents
  sortedContexts := PathMap.sorted_update keeps.sortedContexts
  recorded := by
    rw [recorded_concat, Call.recorded?, Option.toFinset_none, Finset.union_empty]
    exact keeps.recorded
  entered := by
    rw [entered_concat, ← keeps.entered]
    exact PathMap.toFinset_keys_update
  kept entry among := by
    rw [history_concat]
    simpa [Call.eventOf?] using keeps.kept entry among

theorem Keeps.record (keeps : Keeps collector calls) (path : Path) (event : Event) :
    Keeps (collector.record path event) (calls ++ [.record path event]) where
  sortedEvents := PathMap.sorted_update keeps.sortedEvents
  sortedContexts := keeps.sortedContexts
  recorded := by
    rw [recorded_concat, ← keeps.recorded]
    exact PathMap.toFinset_keys_update
  entered := by
    rw [entered_concat, Call.entered?, Option.toFinset_none, Finset.union_empty]
    exact keeps.entered
  kept entry among := by
    rw [history_concat]
    rcases PathMap.of_mem_update keeps.sortedEvents among with ⟨same, value⟩ | ⟨other, old⟩
    · rw [value, same]
      simp only [Call.eventOf?, if_true, Option.toList_some]
      apply toList_append
      exact keeps.toList_fileEvents path
    · simpa [Call.eventOf?, other.symm] using keeps.kept entry old

/-- Every call adds to what a collector holds. -/
theorem Keeps.apply (keeps : Keeps collector calls) (call : Call) :
    Keeps (collector.apply call) (calls ++ [call]) := by
  cases call with
  | enter path id => exact keeps.enter path id
  | record path event => exact keeps.record path event

theorem keeps_after (calls : List Call) : Keeps (after calls) calls := by
  induction calls using List.reverseRecOn with
  | nil => exact keeps_empty
  | append_singleton calls call ih =>
    rw [after_concat]
    exact ih.apply call

end NandTools.Collector
