import NandTools.Log.Event

/-! A log that keeps the latest events up to a threshold in memory. -/
namespace NandTools

structure LogBuffer where
  threshold : Level
  events : Array Event

namespace LogBuffer

def empty (threshold : Level) : LogBuffer := ⟨threshold, #[]⟩

/-- The oldest events make room for a new one. -/
def push (events : Array Event) (event : Event) : Array Event :=
  if events.size < Limits.logBuffer then events.push event
  else (events.extract (events.size + 1 - Limits.logBuffer) events.size).push event

def log (buffer : LogBuffer) (event : Event) : LogBuffer :=
  if event.level.passes buffer.threshold then { buffer with events := push buffer.events event }
  else buffer

def errors (buffer : LogBuffer) : Array Event := buffer.events.filter (·.isError)

def hasError (buffer : LogBuffer) (code : Code) : Bool :=
  buffer.events.any fun event => event.isError && event.code == code

def clear (buffer : LogBuffer) : LogBuffer := { buffer with events := #[] }

end LogBuffer

end NandTools
