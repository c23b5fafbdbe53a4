import Mathlib.Algebra.GroupWithZero.Nat
import NandTools.Proofs.Answers
import NandTools.Proofs.Vm.Session

/-! Calls on one translation. A module that is refused has no effect, neither on what is written and
counted nor on what later calls are answered. -/
namespace NandTools.Translator

/-- What a translation is asked to add. -/
inductive Call where
  | bootstrap
  | module (name : String) (source : List Char)

/-- A module is answered with the number of its commands. -/
def answer (t : Translator) : Call → Except VmError (Option Nat) × Translator
  | .bootstrap => (.ok none, t.writeBootstrap)
  | .module name source =>
    let (result, t) := t.addModule name source
    (result.map some, t)

namespace Call

/-- What a call is answered, whatever was asked before it. -/
def reply : Call → Except VmError (Option Nat)
  | bootstrap => .ok none
  | module name source => (commandsOf name source).map fun commands => some commands.length

def isAccepted (call : Call) : Bool := call.reply.isOk

def isModule : Call → Bool
  | bootstrap => false
  | module .. => true

/-- The commands that a call adds. -/
def commands : Call → List VmCommand
  | bootstrap => []
  | module _ source => VmCommand.ofSource source

def steps : Call → List Step
  | bootstrap => [.bootstrap]
  | module name source => Step.ofModule (name, source)

end Call

/-- A translation to which a call was added. -/
def extend (t : Translator) (call : Call) : Translator where
  writer := t.writer.run call.steps
  stats :=
    { modules := t.stats.modules + if call.isModule then 1 else 0
      commands := t.stats.commands + call.commands.length
      functions := t.stats.functions + call.commands.countP VmCommand.isFunction
      bootstrap := !call.isModule || t.stats.bootstrap }

/-- A call is added as a whole, or is refused and leaves the translation as it was. -/
theorem answer_eq (t : Translator) (call : Call) :
    t.answer call = (call.reply, if call.isAccepted then t.extend call else t) := by
  cases call with
  | bootstrap =>
    have accepted : Call.bootstrap.isAccepted = true := rfl
    rw [answer, accepted, if_pos rfl, extend, writeBootstrap, CodeWriter.run_bootstrap]
    simp [Call.reply, Call.steps, Call.isModule, Call.commands]
  | module name source =>
    rw [answer, addModule_eq, Call.isAccepted, Call.reply]
    cases read : commandsOf name source with
    | error e => rfl
    | ok commands =>
      rw [extend, Call.steps, Call.commands, Step.ofModule, commandsOf_ok read]
      rfl

theorem answers_eq (t : Translator) (calls : List Call) :
    answers answer t calls =
      (calls.map Call.reply, (calls.filter Call.isAccepted).foldl extend t) := by
  induction calls generalizing t with
  | nil => rfl
  | cons call rest ih =>
    rw [answers_cons, answer_eq, ih, List.filter_cons]
    split <;> rfl

theorem writer_foldl_extend (t : Translator) (calls : List Call) :
    (calls.foldl extend t).writer = t.writer.run (calls.flatMap Call.steps) := by
  induction calls generalizing t with
  | nil => rfl
  | cons call rest ih =>
    rw [List.foldl_cons, ih, List.flatMap_cons, CodeWriter.run_append]
    rfl

theorem stats_foldl_extend (t : Translator) (calls : List Call) :
    (calls.foldl extend t).stats =
      { modules := t.stats.modules + calls.countP Call.isModule
        commands := t.stats.commands + (calls.map fun call => call.commands.length).sum
        functions := t.stats.functions +
          (calls.map fun call => call.commands.countP VmCommand.isFunction).sum
        bootstrap := (calls.any fun call => !call.isModule) || t.stats.bootstrap } := by
  induction calls generalizing t with
  | nil => simp
  | cons call rest ih =>
    rw [List.foldl_cons, ih]
    simp only [extend, List.map_cons, List.sum_cons, List.countP_cons, List.any_cons,
      Bool.or_assoc, Bool.or_left_comm, Nat.add_assoc, TranslationStats.mk.injEq, and_true]
    omega

/-- A module is accepted when it can be read and is not too long. -/
theorem reply_module_iff {name : String} {source : List Char} {count : Nat} :
    Call.reply (.module name source) = .ok (some count) ↔ ∃ program,
      VmCommand.parseProgram source = .ok program ∧
        (Call.module name source).commands = program.map Prod.snd ∧
          count = program.length ∧ count ≤ Limits.vmCommands := by
  rw [Call.reply, commandsOf, Call.commands, VmCommand.ofSource]
  cases VmCommand.parseProgram source with
  | error e =>
    constructor
    · intro accepted
      cases accepted
    · rintro ⟨program, read, _⟩
      cases read
  | ok program =>
    dsimp only
    by_cases many : program.length > Limits.vmCommands
    · rw [if_pos many]
      constructor
      · intro accepted
        cases accepted
      · rintro ⟨_, read, _, rfl, few⟩
        cases read
        exact absurd few (Nat.not_le_of_gt many)
    · rw [if_neg many, Except.map, List.length_map]
      constructor
      · intro accepted
        cases accepted
        exact ⟨program, rfl, rfl, rfl, Nat.le_of_not_gt many⟩
      · rintro ⟨_, read, _, rfl, _⟩
        cases read
        rfl

/-- A session is the same without the calls that it refuses: all others are answered as they were, and
the translation comes to the same. What is written and counted at the end is what the accepted calls
add, and a module that is accepted is answered with the number of its commands. -/
theorem answers_accepted (annotate : Bool) (calls : List Call) :
    let accepted := calls.filter Call.isAccepted
    let session := answers answer (ofAnnotate annotate) calls
    session.1 = calls.map Call.reply ∧
      answers answer (ofAnnotate annotate) accepted = (accepted.map Call.reply, session.2) ∧
      session.2.finish.assembly =
        CodeWriter.textOf (CodeWriter.listing { annotate } (accepted.flatMap Call.steps)) ∧
      session.2.finish.stats =
        { modules := accepted.countP Call.isModule
          commands := (accepted.map fun call => call.commands.length).sum
          functions := (accepted.map fun call => call.commands.countP VmCommand.isFunction).sum
          bootstrap := accepted.any fun call => !call.isModule } ∧
      ∀ name source count, Call.reply (.module name source) = .ok (some count) ↔ ∃ program,
        VmCommand.parseProgram source = .ok program ∧
          (Call.module name source).commands = program.map Prod.snd ∧
            count = program.length ∧ count ≤ Limits.vmCommands := by
  intro accepted session
  have whole : session = (calls.map Call.reply, accepted.foldl extend (ofAnnotate annotate)) :=
    answers_eq _ calls
  have again : accepted.filter Call.isAccepted = accepted :=
    List.filter_eq_self.mpr fun call member => (List.mem_filter.mp member).2
  refine ⟨congrArg Prod.fst whole, ?_, ?_, ?_, fun name source count => reply_module_iff⟩
  · rw [answers_eq, again, whole]
  · rw [whole, finish, writer_foldl_extend]
    exact CodeWriter.text_run _ rfl _
  · rw [whole, finish, stats_foldl_extend]
    simp [ofAnnotate]

end NandTools.Translator
