import NandTools.Proofs.Assembly.Rejection
import NandTools.Proofs.Vm.Session

/-! What is translated can be assembled, but for labels, memory and calls with too many arguments. -/
namespace NandTools

namespace VmCommand

def ofModules (modules : List (String × List Char)) : List VmCommand :=
  modules.flatMap fun module => ofSource module.2

theorem mem_ofModules {modules : List (String × List Char)} {command : VmCommand} :
    command ∈ ofModules modules ↔ .command command ∈ modules.flatMap Step.ofModule := by
  simp [ofModules, Step.ofModule]

theorem accepted_of_mem_ofModules {modules : List (String × List Char)} {command : VmCommand}
    (member : command ∈ ofModules modules) : command.Accepted := by
  obtain ⟨module, _, among⟩ := List.mem_flatMap.mp member
  exact accepted_of_mem_ofSource among

end VmCommand

namespace CodeWriter

open Instruction (address)

/-- The module of a writer has a name that fits, and its function one that is a symbol. -/
structure Ready (fits : String → Prop) (w : CodeWriter) : Prop where
  module : fits w.module
  function : ∀ name ∈ w.function?, Instruction.isSymbol name.toList = true

variable {fits : String → Prop}

theorem Ready.pass {w : CodeWriter} {command : VmCommand} (ready : w.Ready fits)
    (accepted : command.Accepted) : (w.pass command).Ready fits := by
  cases command with
  | function name locals =>
    refine ⟨ready.module, ?_⟩
    rintro _ ⟨⟩
    exact accepted.1
  | arithmetic operation => cases operation <;> exact ⟨ready.module, ready.function⟩
  | _ => exact ⟨ready.module, ready.function⟩

/-- What holds of the lines of every command holds of everything that commands of one module write. -/
private theorem forall_listing_commands {P : AssemblyLine → Prop} {w : CodeWriter}
    {commands : List VmCommand} (ready : w.Ready fits) (accepted : ∀ c ∈ commands, c.Accepted)
    (each : ∀ w : CodeWriter, w.Ready fits → ∀ c ∈ commands, ∀ line ∈ w.lines c, P line) :
    ∀ line ∈ w.listing (commands.map .command), P line := by
  induction commands generalizing w with
  | nil => exact nofun
  | cons command rest ih =>
    intro line member
    rcases List.mem_append.mp member with first | later
    · exact each w ready command List.mem_cons_self line first
    · exact ih (ready.pass (accepted command List.mem_cons_self))
        (fun c among => accepted c (List.mem_cons_of_mem command among))
        (fun w ready c among => each w ready c (List.mem_cons_of_mem command among)) line later

theorem forall_listing {P : AssemblyLine → Prop} {modules : List (String × List Char)}
    (named : ∀ module ∈ modules, fits module.1)
    (each : ∀ w : CodeWriter, w.Ready fits → ∀ c ∈ VmCommand.ofModules modules,
      ∀ line ∈ w.lines c, P line) (w : CodeWriter) :
    ∀ line ∈ w.listing (modules.flatMap Step.ofModule), P line := by
  induction modules generalizing w with
  | nil => exact nofun
  | cons module rest ih =>
    intro line member
    rw [List.flatMap_cons, listing_append] at member
    rcases List.mem_append.mp member with first | later
    · have ready : (w.setModule module.1).Ready fits := ⟨named module List.mem_cons_self, nofun⟩
      refine forall_listing_commands ready (fun c => VmCommand.accepted_of_mem_ofSource) ?_ line first
      intro w ready c among
      exact each w ready c (List.mem_append_left _ among)
    · exact ih (fun module among => named module (List.mem_cons_of_mem _ among))
        (fun w ready c among => each w ready c (List.mem_append_right _ among)) _ line later

/-- The lines of a whole translation. -/
theorem forall_session {P : AssemblyLine → Prop} {modules : List (String × List Char)}
    {bootstrap annotate : Bool} (named : ∀ module ∈ modules, fits module.1)
    (first : ∀ line ∈ bootstrapLines { annotate }, P line)
    (each : ∀ w : CodeWriter, w.Ready fits → ∀ c ∈ VmCommand.ofModules modules,
      ∀ line ∈ w.lines c, P line) :
    ∀ line ∈ listing { annotate } (Step.ofModules modules bootstrap), P line := by
  intro line member
  rw [Step.ofModules, listing_append] at member
  rcases List.mem_append.mp member with early | later
  · cases bootstrap with
    | false => cases early
    | true =>
      rw [if_pos rfl, listing, listing, List.append_nil] at early
      exact first line early
  · exact forall_listing named each _ line later

theorem mem_listing {w : CodeWriter} {command : VmCommand} {steps : List Step}
    (member : .command command ∈ steps) :
    ∃ w' : CodeWriter, ∀ line ∈ w'.lines command, line ∈ w.listing steps := by
  obtain ⟨front, back, rfl⟩ := List.append_of_mem member
  refine ⟨front.foldl after w, fun line among => ?_⟩
  rw [listing_append]
  exact List.mem_append_right _ (List.mem_append_left _ among)

/-- A line that is read as it was written, with an instruction that can be encoded unless it is the
size of the frame of one of `commands`. -/
def Sound (commands : List VmCommand) (line : AssemblyLine) : Prop :=
  line.isPrintable = true ∧ ∀ i, line.instruction? = some i → i.isLegal = true ∨
    ∃ name args, .call name args ∈ commands ∧ i = address (toString (args + 5))

theorem sound_lines {w : CodeWriter} {commands : List VmCommand}
    (ready : w.Ready fun name => Instruction.isSymbol name.toList = true) {command : VmCommand}
    (member : command ∈ commands) (accepted : command.Accepted) :
    ∀ line ∈ w.lines command, Sound commands line := by
  have each := legal_or_size_of_code ready.module ready.function accepted
  have readable : ∀ i ∈ w.code command, i.isReadable = true := by
    intro i among
    rcases each i among with legal | ⟨_, args, _, same⟩
    · exact Instruction.isReadable_of_legal legal
    · exact readable_of_legal_or_size (.inr same)
  intro line among
  refine ⟨printable_lines accepted readable line among, fun i instruction => ?_⟩
  have inside : i ∈ w.code command := by
    rw [← instructions_of_lines]
    exact List.mem_filterMap.mpr ⟨line, among, instruction⟩
  refine (each i inside).imp_right ?_
  rintro ⟨name, args, rfl, same⟩
  exact ⟨name, args, member, same⟩

theorem sound_bootstrapLines {w : CodeWriter} (outside : w.function? = none)
    (commands : List VmCommand) : ∀ line ∈ w.bootstrapLines, Sound commands line := by
  have instruction {i : Instruction} (legal : i.isLegal = true) :
      Sound commands (.instruction i) := by
    refine ⟨Instruction.isReadable_of_legal legal, ?_⟩
    rintro _ ⟨⟩
    exact .inl legal
  have returns : Instruction.isSymbol w.returnLabel.toList = true :=
    isSymbol_returnLabel (by rw [outside]; exact nofun)
  have small : (address (toString 5)).isLegal = true := by
    rw [Instruction.isLegal_number]
    rfl
  have setup : ∀ i ∈ [address (toString Limits.stackBase), set "D" "A", address "SP", set "M" "D"],
      i.isLegal = true := by
    simp only [List.forall_mem_cons, Instruction.isLegal_number]
    exact ⟨rfl, rfl, rfl, rfl, nofun⟩
  intro line member
  rcases List.mem_append.mp member with comment | code
  · split at comment
    · rw [List.mem_singleton.mp comment]
      exact ⟨by decide, nofun⟩
    · cases comment
  · obtain ⟨i, among, rfl⟩ := List.mem_map.mp code
    rcases List.mem_append.mp among with first | call
    · exact instruction (setup i first)
    · rcases legal_or_size_of_callCode 0 returns (by decide) i call with legal | rfl
      · exact instruction legal
      · exact instruction small

theorem sound_listing {modules : List (String × List Char)}
    (named : ∀ module ∈ modules, Instruction.isSymbol module.1.toList = true)
    (bootstrap annotate : Bool) :
    ∀ line ∈ CodeWriter.listing { annotate } (Step.ofModules modules bootstrap),
      Sound (VmCommand.ofModules modules) line :=
  forall_session named (sound_bootstrapLines rfl _) fun _ ready _ among =>
    sound_lines ready among (VmCommand.accepted_of_mem_ofModules among)

end CodeWriter

namespace Translation

open Instruction (address)

/-- The instructions of a session. -/
def code (annotate : Bool) (steps : List Step) : List Instruction :=
  (CodeWriter.listing { annotate } steps).filterMap AssemblyLine.instruction?

section Accepted

variable {modules : List (String × List Char)} {bootstrap annotate : Bool}
  {translation : Translation}
  (named : ∀ module ∈ modules, Instruction.isSymbol module.1.toList = true)
  (accepted : (Translation.ofModules modules bootstrap annotate).1 = .ok translation)
include named accepted

theorem read?_assembly : Instruction.read? translation.assembly.toList =
    some (code annotate (Step.ofModules modules bootstrap)) := by
  rw [Translator.assembly_of_ofModules accepted]
  exact Instruction.read?_textOf fun line member =>
    (CodeWriter.sound_listing named bootstrap annotate line member).1

theorem parsed_assembly : ∃ program,
    Instruction.parseProgram translation.assembly.toList = .ok program ∧
      program.map Prod.snd = code annotate (Step.ofModules modules bootstrap) :=
  Instruction.parseProgram_of_read? (read?_assembly named accepted)

omit accepted in
theorem legal_or_size_of_mem : ∀ i ∈ code annotate (Step.ofModules modules bootstrap),
    i.isLegal = true ∨ ∃ name args,
      .call name args ∈ VmCommand.ofModules modules ∧ i = address (toString (args + 5)) := by
  intro i member
  obtain ⟨line, among, instruction⟩ := List.mem_filterMap.mp member
  exact (CodeWriter.sound_listing named bootstrap annotate line among).2 i instruction

omit accepted in
/-- What cannot be encoded is the size of the frame of a call with too many arguments. -/
theorem size_of_not_legal {i : Instruction}
    (member : i ∈ code annotate (Step.ofModules modules bootstrap)) (illegal : i.isLegal = false) :
    ∃ name args, .call name args ∈ VmCommand.ofModules modules ∧ Limits.address < args + 5 ∧
      i = address (toString (args + 5)) := by
  rcases legal_or_size_of_mem named i member with legal | ⟨name, args, call, rfl⟩
  · rw [illegal] at legal
    cases legal
  · rw [Instruction.isLegal_number, decide_eq_false_iff_not] at illegal
    exact ⟨name, args, call, Nat.lt_of_not_le illegal, rfl⟩

omit named accepted in
theorem size_mem_code {name : String} {args : Nat}
    (call : .call name args ∈ VmCommand.ofModules modules) :
    address (toString (args + 5)) ∈ code annotate (Step.ofModules modules bootstrap) := by
  have step : .command (.call name args) ∈ Step.ofModules modules bootstrap :=
    List.mem_append_right _ (VmCommand.mem_ofModules.mp call)
  obtain ⟨w, lines⟩ := CodeWriter.mem_listing (w := { annotate }) step
  have inside := CodeWriter.size_mem_callCode w.returnLabel name args
  have line : .instruction (address (toString (args + 5))) ∈ w.lines (.call name args) :=
    List.mem_append_right _ (List.mem_map_of_mem inside)
  exact List.mem_filterMap.mpr ⟨_, lines _ line, rfl⟩

/-- Whatever is translated is read as instructions. Each of them can be encoded but the sizes of the
frames of calls with too many arguments, so all of them can be just when no call has too many. Then
the program is assembled, unless labels clash or a memory is too small. -/
theorem encodable_iff_measured :
    ∃ code, Instruction.read? translation.assembly.toList = some code ∧
      (∀ i ∈ code, i.isLegal = true ∨ ∃ name args, .call name args ∈ VmCommand.ofModules modules ∧
        Limits.address < args + 5 ∧ i = address (toString (args + 5))) ∧
      ((∀ i ∈ code, i.isLegal = true) ↔
        ∀ command ∈ VmCommand.ofModules modules, command.isMeasured = true) ∧
      ∀ e, (Assembly.assemble .initial translation.assembly.toList).1 = .error e →
        AssemblyError.Misplaced (code.filterMap Instruction.declared?) e ∨
          ∃ name args line, .call name args ∈ VmCommand.ofModules modules ∧
            Limits.address < args + 5 ∧ e = .constantOutOfRange (toString (args + 5)) line := by
  have read := read?_assembly named accepted
  refine ⟨_, read, fun i member => ?_, ⟨fun legal command member => ?_, fun measured i member => ?_⟩,
    fun e failed => ?_⟩
  · cases legal : i.isLegal with
    | true => exact .inl rfl
    | false => exact .inr (size_of_not_legal named member legal)
  · cases command with
    | call name args =>
      have size := legal _ (size_mem_code member)
      rw [Instruction.isLegal_number] at size
      exact size
    | _ => rfl
  · refine Bool.ne_false_iff.mp fun illegal => ?_
    obtain ⟨name, args, call, large, _⟩ := size_of_not_legal named member illegal
    exact absurd (of_decide_eq_true (measured _ call)) (Nat.not_le_of_lt large)
  · have loads : ∀ i ∈ code annotate (Step.ofModules modules bootstrap), Assembly.Loads i := by
      intro i member
      refine (legal_or_size_of_mem named i member).imp_right ?_
      rintro ⟨name, args, _, same⟩
      exact ⟨args + 5, same⟩
    refine (Assembly.error_of_assemble read loads failed).imp_right ?_
    rintro ⟨n, line, member, large, rfl⟩
    have illegal : (address (toString n)).isLegal = false := by
      rw [Instruction.isLegal_number, decide_eq_false_iff_not]
      exact Nat.not_le_of_lt large
    obtain ⟨name, args, call, large, same⟩ := size_of_not_legal named member illegal
    refine ⟨name, args, line, call, large, ?_⟩
    rw [Instruction.address.inj same]

end Accepted

theorem encodable_of_one_call :
    let source := "function Main.main 0\npush constant 7\ncall Math.abs 1\nreturn\n".toList
    ∃ translation code, (Translation.ofModules [("Main", source)] true true).1 = .ok translation ∧
      Instruction.read? translation.assembly.toList = some code ∧
        .address "6" ∈ code ∧ ∀ i ∈ code, i.isLegal = true := by
  intro source
  obtain ⟨translation, accepted⟩ :
      ∃ translation, (Translation.ofModules [("Main", source)] true true).1 = .ok translation :=
    ⟨_, rfl⟩
  have named : ∀ module ∈ [("Main", source)], Instruction.isSymbol module.1.toList = true := by
    decide
  have size : Instruction.address "6" ∈ code true (Step.ofModules [("Main", source)] true) := by
    decide +kernel
  obtain ⟨_, read, _, encodable, _⟩ := encodable_iff_measured named accepted
  obtain rfl := Option.some.inj ((read?_assembly named accepted).symm.trans read)
  exact ⟨translation, _, accepted, read, size, encodable.mpr (by decide +kernel)⟩

/-- The size of the frame of a call with 32763 arguments is not a number that can be encoded. -/
theorem call_not_encodable : ∃ translation code,
    (Translation.ofModules [("Main", "call f 32763".toList)] false false).1 = .ok translation ∧
      Instruction.isSymbol "Main".toList = true ∧
        Instruction.read? translation.assembly.toList = some code ∧
          .address "32768" ∈ code ∧ (Instruction.address "32768").isLegal = false := by
  obtain ⟨translation, accepted⟩ : ∃ translation,
      (Translation.ofModules [("Main", "call f 32763".toList)] false false).1 = .ok translation :=
    ⟨_, rfl⟩
  have named : ∀ module ∈ [("Main", "call f 32763".toList)],
      Instruction.isSymbol module.1.toList = true := by decide
  exact ⟨translation, _, accepted, by decide, read?_assembly named accepted, by decide +kernel,
    by decide +kernel⟩

end Translation

end NandTools
