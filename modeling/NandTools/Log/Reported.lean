import NandTools.Log.Event

/-! Computations that may fail and that report events, whether they fail or not. -/
namespace NandTools

abbrev Reported (ε : Type) := ExceptT ε (StateM (Array Event))

namespace Reported

variable {α ε δ : Type}

def report (event : Event) : Reported ε Unit := modify (·.push event)

/-- Fail, after a report of the reason. -/
def abort (event : Event) (error : ε) : Reported ε α := do
  report event
  throw error

/-- A result that comes with its events. -/
def ofPair (result : Except ε α) (events : List Event) : Reported ε α := do
  modify fun (sent : Array Event) => sent ++ events
  liftExcept result

/-- Give the reason of a failure another form. -/
def mapError (f : ε → δ) (computation : Reported ε α) : Reported δ α :=
  ExceptT.adapt f computation

def result (computation : Reported ε α) : Except ε α × Array Event :=
  (ExceptT.run computation).run #[]

end Reported

end NandTools
