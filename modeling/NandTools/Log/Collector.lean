import NandTools.Log.Event
import NandTools.Path.Map

/-! What went wrong in which file. For each file a bounded number of events is kept, and every
file that was opened is remembered, so that a summary can count the files without faults. -/
namespace NandTools

structure Collector where
  events : PathMap (Array Event)
  contexts : PathMap Nat

/-- The counts of a run. -/
structure Summary where
  files : Nat
  successful : Nat
  failed : Nat
  withWarnings : Nat
  errors : Nat
  warnings : Nat
deriving Repr, DecidableEq

namespace Collector

def empty : Collector := ⟨[], []⟩

/-- Stands as the last event of a file that had more than are kept. -/
def overflow : Event :=
  .warning s!"Too many events for file (limit: {Limits.logEventsPerFile})" []

def append (event : Event) (events : Array Event) : Array Event :=
  if events.size < Limits.logEventsPerFile then events.push event
  else if events.size = Limits.logEventsPerFile then events.push overflow
  else events

def record (collector : Collector) (path : Path) (event : Event) : Collector :=
  { collector with
    events := collector.events.update path fun events? => append event (events?.getD #[]) }

/-- Remember that the file with this number was opened. -/
def enter (collector : Collector) (path : Path) (id : Nat) : Collector :=
  { collector with contexts := collector.contexts.insert path id }

def fileEvents (collector : Collector) (path : Path) : Array Event :=
  (collector.events.find? path).getD #[]

def fileErrors (collector : Collector) (path : Path) : Array Event :=
  (collector.fileEvents path).filter (·.isError)

/-- A count of the events of a file, added up over the files. -/
def tally (collector : Collector) (count : Array Event → Nat) : Nat :=
  collector.events.foldl (fun sum entry => sum + count entry.2) 0

/-- How many events are kept in all. -/
def size (collector : Collector) : Nat := collector.tally (·.size)

/-- A file with errors has failed; one with warnings only is counted by itself. Files that were
opened and have no events have succeeded. -/
def summary (collector : Collector) : Summary :=
  let kept := collector.events.map (·.2)
  let untouched := collector.contexts.filter fun entry => !collector.events.has entry.1
  let failed := kept.filter fun events => events.any (·.isError)
  let sound := kept.filter fun events => !events.any (·.isError)
  { files := max collector.contexts.length collector.events.length
    successful := untouched.length + (sound.filter fun events => !events.any (·.isWarning)).length
    failed := failed.length
    withWarnings := (sound.filter fun events => events.any (·.isWarning)).length
    errors := collector.tally fun events => events.countP (·.isError)
    warnings := collector.tally fun events => events.countP (·.isWarning) }

end Collector

end NandTools
