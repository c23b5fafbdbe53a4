import Mathlib.Data.List.Nodup
import NandTools.Proofs.Assembly.Declaration
import NandTools.Proofs.Vm.Emission
import NandTools.Proofs.Vm.Names

/-! The labels that a translation declares: entries of functions, labels of functions, returns of
calls and outcomes of comparisons. -/
namespace NandTools

namespace CodeWriter

theorem localLabel_eq (w : CodeWriter) (name : String) :
    w.localLabel name = Step.labelText (w.function?, name) := by
  unfold localLabel
  split
  · next inside => rw [inside, Step.labelText]
  · next outside => rw [outside, Step.labelText]

/-- The labels that the lines of a session declare. -/
def declared (w : CodeWriter) (steps : List Step) : List String :=
  ((w.listing steps).filterMap AssemblyLine.instruction?).filterMap Instruction.declared?

theorem declared_cons (w : CodeWriter) (step : Step) (rest : List Step) :
    w.declared (step :: rest) =
      ((w.stepLines step).filterMap AssemblyLine.instruction?).filterMap Instruction.declared? ++
        (w.after step).declared rest := by
  rw [declared, listing, List.filterMap_append, List.filterMap_append]
  rfl

theorem declared_command (w : CodeWriter) (command : VmCommand) (rest : List Step) :
    w.declared (.command command :: rest) =
      (w.code command).filterMap Instruction.declared? ++ (w.pass command).declared rest := by
  rw [declared_cons, stepLines, instructions_of_lines]
  rfl

theorem declared_bootstrap (w : CodeWriter) (rest : List Step) :
    w.declared (.bootstrap :: rest) =
      w.returnLabel :: (w.pass (.call "Sys.init" 0)).declared rest := by
  rw [declared_cons, stepLines, bootstrapLines]
  split <;> rfl

theorem declared_functionCode (name : String) (locals : Nat) :
    (functionCode name locals).filterMap Instruction.declared? = [name] := by
  refine congrArg (name :: ·) (List.filterMap_eq_nil_iff.mpr fun i member => ?_)
  obtain ⟨code, among, inside⟩ := List.mem_flatten.mp member
  rw [(List.mem_replicate.mp among).2] at inside
  have block : ∀ i ∈ [Instruction.address "SP", set "A" "M", set "M" "0", .address "SP",
      set "M" "M+1"], i.declared? = none := by decide
  exact block i inside

theorem declared_pushCode (module : String) (segment : Segment) (index : Nat) :
    (pushCode module segment index).filterMap Instruction.declared? = [] := by
  cases segment <;> simp only [pushCode, Segment.base?] <;> (try split) <;> rfl

theorem declared_popCode (module : String) (segment : Segment) (index : Nat) :
    (popCode module segment index).filterMap Instruction.declared? = [] := by
  cases segment <;> simp only [popCode, Segment.base?] <;> (try split) <;> rfl

theorem declared_callCode (returnLabel name : String) (args : Nat) :
    (callCode returnLabel name args).filterMap Instruction.declared? = [returnLabel] := rfl

/-- The labels of a session, sorted by what they are for. Returns and comparisons are numbered. -/
def sorted (w : CodeWriter) (steps : List Step) : List String :=
  Step.functions steps ++ ((Step.labels w.function? steps).map Step.labelText ++
    (((Step.callers w.function? steps).zipIdx w.calls).map Step.returnText ++
      ((Step.comparisons steps).zipIdx w.comparisons).flatMap fun comparison =>
        outcomes comparison.1 comparison.2))

private theorem perm_second (new first second rest : List String) :
    (new ++ (first ++ (second ++ rest))).Perm (first ++ (second ++ (new ++ rest))) :=
  (List.perm_append_comm_assoc new first _).trans
    ((List.perm_append_comm_assoc new second rest).append_left first)

private theorem perm_third (new first second third rest : List String) :
    (new ++ (first ++ (second ++ (third ++ rest)))).Perm
      (first ++ (second ++ (third ++ (new ++ rest)))) :=
  (perm_second new first second (third ++ rest)).trans
    (((List.perm_append_comm_assoc new third rest).append_left second).append_left first)

theorem declared_perm_sorted (w : CodeWriter) (steps : List Step) :
    (w.declared steps).Perm (w.sorted steps) := by
  induction steps generalizing w with
  | nil => exact .nil
  | cons step rest ih =>
    cases step with
    | bootstrap =>
      rw [declared_bootstrap]
      exact ((ih _).cons _).trans (perm_second [w.returnLabel] _ _ _)
    | module name =>
      rw [declared_cons]
      exact ih (w.setModule name)
    | command command =>
      rw [declared_command]
      refine ((ih _).append_left _).trans ?_
      -- What the command declares moves past the groups that come before its own.
      cases command with
      | push segment index =>
        rw [code, declared_pushCode]
        exact .refl _
      | pop segment index =>
        rw [code, declared_popCode]
        exact .refl _
      | label name =>
        refine (List.perm_append_comm_assoc [w.localLabel name] _ _).trans ?_
        rw [localLabel_eq]
        exact .refl _
      | goto name => exact .refl _
      | ifGoto name => exact .refl _
      | function name locals =>
        rw [code, declared_functionCode]
        exact .refl _
      | call name args =>
        rw [code, declared_callCode]
        exact perm_second [w.returnLabel] _ _ _
      | return_ => exact .refl _
      | arithmetic operation =>
        cases operation with
        | eq => exact perm_third (outcomes "EQ" w.comparisons) _ _ _ _
        | gt => exact perm_third (outcomes "GT" w.comparisons) _ _ _ _
        | lt => exact perm_third (outcomes "LT" w.comparisons) _ _ _ _
        | _ => exact .refl _

open Step (functions labels labelText returnTexts outcomeTexts Apart)

/-- When functions differ and the labels of each function do, the labels that are declared differ
just when names do not run together. -/
theorem nodup_sorted_iff {annotate : Bool} {steps : List Step} (functions : (functions steps).Nodup)
    (inside : ∀ label ∈ labels none steps, label.1.isSome) (labels : (labels none steps).Nodup) :
    (sorted { annotate } steps).Nodup ↔ Apart steps := by
  have returns : (returnTexts steps).Nodup := Step.nodup_returnTexts steps
  have outcomes : (outcomeTexts steps).Nodup := Step.nodup_outcomeTexts steps
  have numbered : (returnTexts steps ++ outcomeTexts steps).Nodup :=
    List.nodup_append.mpr ⟨returns, outcomes, Step.return_ne_outcome⟩
  change (Step.functions steps ++ ((Step.labels none steps).map labelText ++
    (returnTexts steps ++ outcomeTexts steps))).Nodup ↔ _
  constructor
  · intro distinct
    obtain ⟨_, rest, entries⟩ := List.nodup_append.mp distinct
    obtain ⟨texts, _, others⟩ := List.nodup_append.mp rest
    refine ⟨fun name member => ⟨fun label => ?_, fun call => ?_, fun outcome => ?_⟩,
      fun label member label' member' => List.inj_on_of_nodup_map texts member member',
      fun label member call => ?_⟩
    · exact entries name member name (List.mem_append_left _ label) rfl
    · exact entries name member name
        (List.mem_append_right _ (List.mem_append_left _ call)) rfl
    · exact entries name member name
        (List.mem_append_right _ (List.mem_append_right _ outcome)) rfl
    · exact others _ (List.mem_map_of_mem member) _ (List.mem_append_left _ call) rfl
  · intro apart
    have texts : ((Step.labels none steps).map labelText).Nodup := labels.map_on apart.labels
    refine List.nodup_append.mpr ⟨functions, List.nodup_append.mpr ⟨texts, numbered, ?_⟩, ?_⟩
    · rintro _ member text other rfl
      obtain ⟨label, among, rfl⟩ := List.mem_map.mp member
      rcases List.mem_append.mp other with call | outcome
      · exact apart.returns label among call
      · exact Step.label_ne_outcome (inside label among) _ outcome rfl
    · rintro name member _ other rfl
      obtain ⟨label, call, outcome⟩ := apart.functions name member
      rcases List.mem_append.mp other with among | other
      · exact label among
      · exact (List.mem_append.mp other).elim call outcome

/-- The name of the module is found only where a static variable is. -/
theorem mem_code_of_module {w : CodeWriter} {command : VmCommand} {i : Instruction}
    (member : i ∈ w.code command) (module : String) :
    i ∈ { w with module }.code command ∨ ∃ index : Nat, i = .address s!"{w.module}.{index}" := by
  cases command with
  | push segment index =>
    cases segment with
    | static =>
      rcases List.mem_cons.mp member with rfl | later
      · exact .inr ⟨index, rfl⟩
      · exact .inl (List.mem_cons_of_mem _ later)
    | _ => exact .inl member
  | pop segment index =>
    cases segment with
    | constant | static =>
      rcases List.mem_append.mp member with first | last
      · exact .inl (List.mem_append_left _ first)
      · rcases List.mem_cons.mp last with rfl | later
        · exact .inr ⟨index, rfl⟩
        · exact .inl (List.mem_append_right _ (List.mem_cons_of_mem _ later))
    | _ => exact .inl member
  | _ => exact .inl member

/-- Every line of a command stays one line in a module of any name that is a single line. -/
theorem unbroken_lines {w : CodeWriter} (ready : w.Ready fun name => '\n' ∉ name.toList)
    {command : VmCommand} (accepted : command.Accepted) :
    ∀ line ∈ w.lines command, line.Unbroken := by
  -- Only the module may fail to be a symbol, so lines are compared with those in one that is.
  have named : { w with module := "Main" }.Ready fun name => Instruction.isSymbol name.toList :=
    ⟨show Instruction.isSymbol "Main".toList = true by decide, ready.function⟩
  have renamed : ∀ line ∈ { w with module := "Main" }.lines command, line.Unbroken := fun line among =>
    .printable (sound_lines named (List.mem_singleton_self command) accepted line among).1
  intro line member
  rcases List.mem_append.mp member with comment | instruction
  · exact renamed line (List.mem_append_left _ comment)
  · obtain ⟨i, among, rfl⟩ := List.mem_map.mp instruction
    rcases mem_code_of_module among "Main" with same | ⟨index, rfl⟩
    · exact renamed _ (List.mem_append_right _ (List.mem_map_of_mem same))
    · have chars : (s!"{w.module}.{index}").toList =
          w.module.toList ++ '.' :: (toString index).toList := by
        simp [toString]
      refine .address ?_
      rw [chars, List.mem_append, List.mem_cons, not_or, not_or]
      exact ⟨ready.module, by decide, Text.not_mem_toString '\n' (by decide) index⟩

theorem unbroken_listing {modules : List (String × List Char)}
    (single : ∀ module ∈ modules, '\n' ∉ module.1.toList) (bootstrap annotate : Bool) :
    ∀ line ∈ listing { annotate } (Step.ofModules modules bootstrap), line.Unbroken :=
  forall_session single
    (fun line member => .printable (sound_bootstrapLines rfl [] line member).1)
    fun _ ready _ among => unbroken_lines ready (VmCommand.accepted_of_mem_ofModules among)

end CodeWriter

namespace Translation

section Accepted

variable {modules : List (String × List Char)} {bootstrap annotate : Bool}
  {translation : Translation}
  (single : ∀ module ∈ modules, '\n' ∉ module.1.toList)
  (accepted : (Translation.ofModules modules bootstrap annotate).1 = .ok translation)
include single accepted

theorem declaredIn_assembly : Instruction.declaredIn translation.assembly.toList =
    CodeWriter.declared { annotate } (Step.ofModules modules bootstrap) := by
  rw [Translator.assembly_of_ofModules accepted]
  exact Instruction.declaredIn_textOf fun line member =>
    (CodeWriter.unbroken_listing single bootstrap annotate line member).declares

/-- When functions differ and the labels of each function do, the labels of a translation differ just
when names do not run together. No label is reported twice then, and nothing is assembled else. -/
theorem declared_nodup_iff_apart (functions : (Step.functions (Step.ofModules modules bootstrap)).Nodup)
    (inside : ∀ label ∈ Step.labels none (Step.ofModules modules bootstrap), label.1.isSome)
    (labels : (Step.labels none (Step.ofModules modules bootstrap)).Nodup) :
    ((Instruction.declaredIn translation.assembly.toList).Nodup ↔
        Step.Apart (Step.ofModules modules bootstrap)) ∧
      (Step.Apart (Step.ofModules modules bootstrap) → ∀ label line first,
        (Assembly.assemble .initial translation.assembly.toList).1 ≠
          .error (.duplicateLabel label line first)) ∧
      ∀ assembly, (Assembly.assemble .initial translation.assembly.toList).1 = .ok assembly →
        Step.Apart (Step.ofModules modules bootstrap) := by
  have distinct : (Instruction.declaredIn translation.assembly.toList).Nodup ↔
      Step.Apart (Step.ofModules modules bootstrap) := by
    rw [declaredIn_assembly single accepted, (CodeWriter.declared_perm_sorted _ _).nodup_iff]
    exact CodeWriter.nodup_sorted_iff functions inside labels
  refine ⟨distinct, fun apart label line first failed => ?_, fun assembly assembled => ?_⟩
  · exact Assembly.not_nodup_of_duplicate failed (distinct.mpr apart)
  · exact distinct.mp (Assembly.nodup_of_assemble assembled)

end Accepted

theorem declared_nodup_of_plain_names :
    let source := "function f 0\nlabel loop\neq\ncall g 0\nfunction g 0\nlabel loop\n".toList
    ∃ translation, (Translation.ofModules [("Main", source)] true true).1 = .ok translation ∧
      (Instruction.declaredIn translation.assembly.toList).Nodup ∧
        ∀ label line first, (Assembly.assemble .initial translation.assembly.toList).1 ≠
          .error (.duplicateLabel label line first) := by
  intro source
  obtain ⟨translation, accepted⟩ :
      ∃ translation, (Translation.ofModules [("Main", source)] true true).1 = .ok translation :=
    ⟨_, rfl⟩
  have inside : ∀ label ∈ Step.labels none (Step.ofModules [("Main", source)] true),
      label.1.isSome := by decide +kernel
  have apart : Step.Apart (Step.ofModules [("Main", source)] true) :=
    Step.apart_of_plain inside (by decide +kernel) (by decide +kernel) (by decide +kernel)
  obtain ⟨distinct, unreported, _⟩ := declared_nodup_iff_apart (by decide) accepted
    (by decide +kernel) inside (by decide +kernel)
  exact ⟨translation, accepted, distinct.mpr apart, unreported apart⟩

/-- A function may have the name of an outcome. -/
theorem declared_not_nodup : ∃ translation,
    (Translation.ofModules [("Main", "function IS_EQ_0 0\neq\n".toList)] false false).1 =
        .ok translation ∧
      Step.functions (Step.ofModules [("Main", "function IS_EQ_0 0\neq\n".toList)] false) =
        ["IS_EQ_0"] ∧
      Step.labels none (Step.ofModules [("Main", "function IS_EQ_0 0\neq\n".toList)] false) = [] ∧
        Instruction.declaredIn translation.assembly.toList = ["IS_EQ_0", "IS_EQ_0", "END_EQ_0"] ∧
          ∀ assembly, (Assembly.assemble .initial translation.assembly.toList).1 ≠ .ok assembly := by
  obtain ⟨translation, accepted⟩ : ∃ translation,
      (Translation.ofModules [("Main", "function IS_EQ_0 0\neq\n".toList)] false false).1 =
        .ok translation := ⟨_, rfl⟩
  have declared : Instruction.declaredIn translation.assembly.toList =
      ["IS_EQ_0", "IS_EQ_0", "END_EQ_0"] := by
    rw [declaredIn_assembly (by decide) accepted]
    decide +kernel
  refine ⟨translation, accepted, by decide +kernel, by decide +kernel, declared, ?_⟩
  intro assembly assembled
  have distinct := Assembly.nodup_of_assemble assembled
  rw [declared] at distinct
  exact absurd distinct (by decide)

end Translation

end NandTools
