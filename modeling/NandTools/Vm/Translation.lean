import NandTools.Preferences
import NandTools.Vm.Code
import NandTools.Vm.Line

/-! Modules of virtual machine code translated into one assembly program. -/
namespace NandTools

structure TranslationStats where
  modules : Nat := 0
  commands : Nat := 0
  functions : Nat := 0
  bootstrap : Bool := false
deriving Repr, DecidableEq

structure Translation where
  assembly : String
  stats : TranslationStats
deriving Repr

structure Translator where
  writer : CodeWriter
  stats : TranslationStats
deriving Repr

namespace Translator

def ofAnnotate (annotate : Bool) : Translator := ⟨{ annotate }, {}⟩

def writeBootstrap (t : Translator) : Translator :=
  { writer := t.writer.writeBootstrap, stats := { t.stats with bootstrap := true } }

/-- Write the commands of a module. -/
def writeAll (t : Translator) : List (Nat × VmCommand) → Except VmError Unit × Translator
  | [] => (.ok (), t)
  | (line, command) :: rest =>
    match t.writer.write command line with
    | (.error e, writer) => (.error e, { t with writer })
    | (.ok (), writer) =>
      let functions := match command with
        | .function .. => t.stats.functions + 1
        | _ => t.stats.functions
      writeAll { writer, stats := { t.stats with functions } } rest

/-- Add a module and give the number of its commands. A module that cannot be read leaves the
translation as it was. -/
def addModule (t : Translator) (module : String) (source : List Char) :
    Except VmError Nat × Translator :=
  match VmCommand.parseProgram source with
  | .error e => (.error e, t)
  | .ok program =>
    let count := program.length
    if count > Limits.vmCommands then (.error (.tooManyCommands module Limits.vmCommands), t)
    else
      match writeAll { t with writer := t.writer.setModule module } program with
      | (.error e, t) => (.error e, t)
      | (.ok (), t) =>
        let stats := { t.stats with
          modules := t.stats.modules + 1, commands := t.stats.commands + count }
        (.ok count, { t with stats })

/-- What is reported of a module that was added. -/
def moduleEvents (module : String) : Except VmError Nat → List Event
  | .error _ => []
  | .ok count =>
    [.debug "Translated VM module" [("module", module), ("commands", toString count)]]

def finish (t : Translator) : Translation := ⟨t.writer.text, t.stats⟩

/-- Add modules up to the first that fails, with their reports before `events` in reverse. -/
def addModules (t : Translator) (events : List Event) :
    List (String × List Char) → Except VmError Translator × List Event
  | [] => (.ok t, events)
  | (module, source) :: rest =>
    match t.addModule module source with
    | (.error e, _) => (.error e, events)
    | (.ok count, t) => addModules t ((moduleEvents module (.ok count)).reverse ++ events) rest

end Translator

/-- Translate modules into one program, with a report of how it went. -/
def Translation.ofModules (modules : List (String × List Char)) (bootstrap annotate : Bool) :
    Except VmError Translation × List Event :=
  let start := Translator.ofAnnotate annotate
  let (result, events) :=
    (if bootstrap then start.writeBootstrap else start).addModules [] modules
  match result with
  | .ok t =>
    let translation := t.finish
    let stats := translation.stats
    (.ok translation, (Event.success .translated "VM translation completed"
      [("modules", toString stats.modules), ("commands", toString stats.commands),
        ("functions", toString stats.functions)] :: events).reverse)
  | .error e =>
    (.error e, (Event.error e.code "VM translation failed" [("error", e.message)] :: events).reverse)

end NandTools
