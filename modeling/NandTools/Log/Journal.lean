import NandTools.Log.Collector
import NandTools.Preferences
import NandTools.Text.Fixed

/-! The log of a run: every event sent so far, the file that is worked on, and what the
collector has kept of the faults. -/
namespace NandTools

structure Journal where
  events : Array Event
  current? : Option (Path × Nat)
  collector : Collector

inductive JournalError where
  | alreadyOpen
deriving Repr, DecidableEq

def JournalError.message : JournalError → String
  | alreadyOpen => "Global logger already initialized"

namespace Journal

def empty : Journal := ⟨#[], none, .empty⟩

/-- An event that belongs to no file. -/
def note (journal : Journal) (event : Event) : Journal :=
  { journal with events := journal.events.push event }

/-- Start the log of a run, of which there is only one. -/
def open? : Option Journal → Except JournalError Journal
  | none => .ok (empty.note (.success .initialized "Global logging system initialized" []))
  | some _ => .error .alreadyOpen

/-- Turn to a file. -/
def enter (journal : Journal) (path : Path) (id : Nat) : Journal :=
  { journal with current? := some (path, id), collector := journal.collector.enter path id }

def leave (journal : Journal) : Journal := { journal with current? := none }

/-- Name the current file in an event's details. -/
def placed (journal : Journal) (event : Event) : Event :=
  match journal.current? with
  | some (path, id) => (event.withDetail "file" path.text).withDetail "file_id" (toString id)
  | none => event

/-- Errors and warnings are collected under the current file, if there is one. -/
def send (journal : Journal) (event : Event) : Journal :=
  let event := journal.placed event
  let journal := journal.note event
  match journal.current? with
  | some (path, _) =>
    if event.isError || event.isWarning then
      { journal with collector := journal.collector.record path event }
    else journal
  | none => journal

def sendAll (journal : Journal) (events : Array Event) : Journal := events.foldl send journal

/-- The state of the log and the rules it works under. -/
def diagnostics (journal : Journal) (preferences : LogPreferences) : String :=
  let size := journal.collector.size
  let share := Text.fixed 1 (Float.ofNat size / Float.ofNat Limits.logBuffer * 100)
  let summary := journal.collector.summary
  "\n".intercalate
    [ "=== Logging System Diagnostics ===",
      "Initialized: true",
      s!"Capacity: {size}/{Limits.logBuffer} ({share}%)",
      s!"Files processed: {summary.files}",
      s!"Total errors: {summary.errors}",
      s!"Total warnings: {summary.warnings}",
      "",
      "Logging Configuration:",
      "=== Compile-time Limits ===",
      s!"- Log buffer size: {Limits.logBuffer}",
      s!"- Max events per file: {Limits.logEventsPerFile}",
      s!"- Max message length: {Limits.logMessageBytes}",
      "=== Runtime Preferences ===",
      s!"- Min log level: {preferences.threshold.name}",
      s!"- Structured logging: {preferences.structured}",
      s!"- Console logging: {preferences.console}",
      s!"- Cargo-style output: {preferences.summary}" ]

end Journal

end NandTools
