import NandTools.Proofs.Vm.Legal
import NandTools.Vm.Translation

/-! A translation as a session: the code that begins a program, then modules with their commands. -/
namespace NandTools

inductive Step where
  | bootstrap
  | module (name : String)
  | command (command : VmCommand)

def VmCommand.isFunction : VmCommand → Bool
  | function .. => true
  | _ => false

/-- The commands of a module that can be read. -/
def VmCommand.ofSource (source : List Char) : List VmCommand :=
  match parseProgram source with
  | .ok program => program.map Prod.snd
  | .error _ => []

theorem VmCommand.accepted_of_parseProgram {source : List Char} {program : List (Nat × VmCommand)}
    (parsed : parseProgram source = .ok program) : ∀ entry ∈ program, entry.2.Accepted := by
  rw [parseProgram] at parsed
  generalize Text.numberedLines source = lines at parsed
  induction lines generalizing program with
  | nil =>
    cases parsed
    exact nofun
  | cons line lines ih =>
    rw [List.filterMapM_cons] at parsed
    obtain ⟨found, reading, parsed⟩ := Except.ok_of_bind parsed
    obtain ⟨command?, read, same⟩ := Except.ok_of_bind reading
    cases same
    cases command? with
    | none => exact ih parsed
    | some command =>
      obtain ⟨rest, later, same⟩ := Except.ok_of_bind parsed
      cases same
      intro entry member
      rcases List.mem_cons.mp member with rfl | member
      · exact accepted_of_parseLine read
      · exact ih later entry member

theorem VmCommand.accepted_of_mem_ofSource {source : List Char} {command : VmCommand}
    (member : command ∈ ofSource source) : command.Accepted := by
  unfold ofSource at member
  split at member
  · next parsed =>
    obtain ⟨entry, among, rfl⟩ := List.mem_map.mp member
    exact accepted_of_parseProgram parsed entry among
  · cases member

namespace Step

def ofModule (module : String × List Char) : List Step :=
  .module module.1 :: (VmCommand.ofSource module.2).map .command

def ofModules (modules : List (String × List Char)) (bootstrap : Bool) : List Step :=
  (if bootstrap then [.bootstrap] else []) ++ modules.flatMap ofModule

end Step

namespace CodeWriter

open Instruction (address)

/-- The lines of the code that begins a program. -/
def bootstrapLines (w : CodeWriter) : List AssemblyLine :=
  (if w.annotate then [.comment "bootstrap"] else []) ++
    ([address (toString Limits.stackBase), set "D" "A", address "SP", set "M" "D"] ++
      w.code (.call "Sys.init" 0)).map .instruction

def stepLines (w : CodeWriter) : Step → List AssemblyLine
  | .bootstrap => w.bootstrapLines
  | .module _ => []
  | .command command => w.lines command

/-- The writer after a step, but for what is written. -/
def after (w : CodeWriter) : Step → CodeWriter
  | .bootstrap => w.pass (.call "Sys.init" 0)
  | .module name => w.setModule name
  | .command command => w.pass command

/-- What is written in a session. -/
def listing (w : CodeWriter) : List Step → List AssemblyLine
  | [] => []
  | step :: rest => w.stepLines step ++ (w.after step).listing rest

theorem listing_append (w : CodeWriter) (front back : List Step) :
    w.listing (front ++ back) = w.listing front ++ (front.foldl after w).listing back := by
  induction front generalizing w with
  | nil => rfl
  | cons step rest ih => simp only [List.cons_append, listing, List.foldl_cons, ih, List.append_assoc]

/-- What was written before plays no part in what is written next. -/
theorem listing_written (w : CodeWriter) (written : List AssemblyLine) (steps : List Step) :
    { w with written }.listing steps = w.listing steps := by
  induction steps generalizing w written with
  | nil => rfl
  | cons step rest ih =>
    cases step with
    | bootstrap =>
      simp only [listing, stepLines, after, pass_written, ih]
      rfl
    | module name => exact congrArg ([] ++ ·) (ih (w.setModule name) written)
    | command command =>
      simp only [listing, stepLines, after, pass_written, ih, lines, code_written]

theorem foldl_after_written (w : CodeWriter) (written : List AssemblyLine) (steps : List Step) :
    steps.foldl after { w with written } = { steps.foldl after w with written } := by
  induction steps generalizing w with
  | nil => rfl
  | cons step rest ih =>
    cases step with
    | bootstrap => simp only [List.foldl_cons, after, pass_written, ih]
    | module name => exact ih (w.setModule name)
    | command command => simp only [List.foldl_cons, after, pass_written, ih]

/-- The writer after a session. -/
def run (w : CodeWriter) (steps : List Step) : CodeWriter :=
  { steps.foldl after w with written := (w.listing steps).reverse ++ w.written }

theorem run_append (w : CodeWriter) (front back : List Step) :
    w.run (front ++ back) = (w.run front).run back := by
  simp only [run, List.foldl_append, foldl_after_written, listing_append, listing_written,
    List.reverse_append, List.append_assoc]

theorem run_bootstrap (w : CodeWriter) : w.writeBootstrap = w.run [.bootstrap] := by
  simp only [writeBootstrap, comment_eq, code_written, emit, pass_written, List.reverseAux_eq, run,
    listing, stepLines, bootstrapLines, List.append_nil, List.reverse_append, List.append_assoc]
  split <;> rfl

theorem run_command (w : CodeWriter) {command : VmCommand} (accepted : command.Accepted)
    (line : Nat) : w.write command line = (.ok (), w.run [.command command]) := by
  rw [write_eq w accepted, run, listing, listing, List.append_nil]
  rfl

theorem text_run (w : CodeWriter) (fresh : w.written = []) (steps : List Step) :
    (w.run steps).text = textOf (w.listing steps) := by
  rw [text, run, fresh, List.append_nil, List.reverse_reverse]

end CodeWriter

namespace Translator

/-- All commands that are accepted are written, and the functions among them are counted. -/
theorem writeAll_eq {program : List (Nat × VmCommand)} (t : Translator)
    (accepted : ∀ entry ∈ program, entry.2.Accepted) : t.writeAll program =
      (.ok (), ⟨t.writer.run (program.map fun entry => .command entry.2),
        { t.stats with
          functions := t.stats.functions + (program.map Prod.snd).countP VmCommand.isFunction }⟩) := by
  induction program generalizing t with
  | nil => rfl
  | cons entry rest ih =>
    obtain ⟨line, command⟩ := entry
    have first : command.Accepted := accepted (line, command) List.mem_cons_self
    unfold writeAll
    rw [CodeWriter.run_command t.writer first line]
    dsimp only
    rw [ih _ fun entry member => accepted entry (List.mem_cons_of_mem _ member),
      ← CodeWriter.run_append]
    cases command with
    | function name locals =>
      have counted : t.stats.functions +
          (VmCommand.function name locals :: rest.map Prod.snd).countP VmCommand.isFunction =
            t.stats.functions + 1 + (rest.map Prod.snd).countP VmCommand.isFunction := by
        rw [List.countP_cons_of_pos rfl]
        omega
      rw [List.map_cons (f := Prod.snd), counted]
      rfl
    | _ => rfl

/-- The commands of a module, if it is not refused. -/
def commandsOf (module : String) (source : List Char) : Except VmError (List VmCommand) :=
  match VmCommand.parseProgram source with
  | .error e => .error e
  | .ok program =>
    if program.length > Limits.vmCommands then .error (.tooManyCommands module Limits.vmCommands)
    else .ok (program.map Prod.snd)

/-- A module that is not refused is written and counted as a whole. -/
theorem addModule_eq (t : Translator) (module : String) (source : List Char) :
    t.addModule module source =
      match commandsOf module source with
      | .error e => (.error e, t)
      | .ok commands =>
        (.ok commands.length, ⟨t.writer.run (.module module :: commands.map .command),
          { t.stats with
            modules := t.stats.modules + 1
            commands := t.stats.commands + commands.length
            functions := t.stats.functions + commands.countP VmCommand.isFunction }⟩) := by
  unfold addModule commandsOf
  cases parsed : VmCommand.parseProgram source with
  | error e => rfl
  | ok program =>
    dsimp only
    split
    · rfl
    · rw [writeAll_eq _ (VmCommand.accepted_of_parseProgram parsed)]
      dsimp only
      rw [List.length_map, List.map_map, ← List.singleton_append, CodeWriter.run_append]
      rfl

theorem commandsOf_ok {module : String} {source : List Char} {commands : List VmCommand}
    (read : commandsOf module source = .ok commands) : VmCommand.ofSource source = commands := by
  unfold commandsOf at read
  split at read
  · cases read
  · next program parsed =>
    split at read
    · cases read
    · cases read
      rw [VmCommand.ofSource, parsed]

theorem writer_of_addModule {t t' : Translator} {module : String} {source : List Char} {count : Nat}
    (added : t.addModule module source = (.ok count, t')) :
    t'.writer = t.writer.run (Step.ofModule (module, source)) := by
  rw [addModule_eq] at added
  split at added
  · cases added
  · next commands read =>
    cases added
    rw [Step.ofModule, commandsOf_ok read]

theorem writer_of_addModules {t t' : Translator} {events : List Event}
    {modules : List (String × List Char)} (added : (t.addModules events modules).1 = .ok t') :
    t'.writer = t.writer.run (modules.flatMap Step.ofModule) := by
  induction modules generalizing t events with
  | nil =>
    cases added
    rfl
  | cons module rest ih =>
    obtain ⟨name, source⟩ := module
    rw [addModules] at added
    split at added
    · cases added
    · next count next first =>
      rw [ih added, writer_of_addModule first, ← CodeWriter.run_append]
      rfl

/-- What is translated is the listing of a session. -/
theorem assembly_of_ofModules {modules : List (String × List Char)} {bootstrap annotate : Bool}
    {translation : Translation}
    (accepted : (Translation.ofModules modules bootstrap annotate).1 = .ok translation) :
    translation.assembly =
      CodeWriter.textOf (CodeWriter.listing { annotate } (Step.ofModules modules bootstrap)) := by
  unfold Translation.ofModules at accepted
  dsimp only at accepted
  split at accepted
  · next t added =>
    cases accepted
    have writer := writer_of_addModules added
    have session : t.writer = CodeWriter.run { annotate } (Step.ofModules modules bootstrap) := by
      rw [writer, Step.ofModules, CodeWriter.run_append]
      cases bootstrap with
      | false => rfl
      | true => exact congrArg (CodeWriter.run · _) (CodeWriter.run_bootstrap { annotate })
    rw [← CodeWriter.text_run _ rfl, ← session]
    rfl
  · cases accepted

end Translator

end NandTools
