import NandTools.Proofs.Vm.Comparison
import NandTools.Proofs.Vm.Line

/-! Commands that are written, assembled by themselves and run. -/
namespace NandTools

namespace Machine

/-- A short listing whose labels are new is assembled and loaded. -/
theorem exists_loaded {lines : List AssemblyLine}
    (printable : ∀ line ∈ lines, line.isPrintable = true)
    (legal : ∀ i ∈ lines.filterMap AssemblyLine.instruction?, i.isLegal = true)
    (new : ∀ name, .label name ∈ lines.filterMap AssemblyLine.instruction? →
      AssemblySymbols.initial.bindings[name]? = none)
    (distinct : ((lines.filterMap AssemblyLine.instruction?).filterMap
      Instruction.declared?).Nodup)
    (short : lines.length ≤ Limits.screen - Limits.variableBase) :
    ∃ assembly symbols rom,
      Assembly.assemble .initial (CodeWriter.textOf lines).toList = (.ok assembly, symbols) ∧
        assembly.rom? = some rom ∧
          assembly.Encodes symbols (lines.filterMap AssemblyLine.instruction?) ∧ symbols.Bounded ∧
            rom.length = Instruction.size (lines.filterMap AssemblyLine.instruction?) ∧
              Loaded rom symbols 0 (lines.filterMap AssemblyLine.instruction?) := by
  obtain ⟨program, parsed, code⟩ := Instruction.parseProgram_textOf printable
  rw [← code] at legal new distinct ⊢
  have fewer : program.length ≤ lines.length := by
    rw [← List.length_map Prod.snd, code]
    exact List.length_filterMap_le _ _
  obtain ⟨assembly, symbols, assembled⟩ :=
    Assembly.assemble_ok parsed legal new distinct (Nat.le_trans fewer short)
  have encodes := Assembly.encodes_of_assemble parsed assembled
  have size := Instruction.size_le_length (program.map Prod.snd)
  rw [List.length_map] at size
  have small : lines.length ≤ 16368 := short
  have fits : Instruction.size (program.map Prod.snd) ≤ Limits.address := by
    rw [Limits.address]
    omega
  obtain ⟨rom, read, length, loaded⟩ := loaded_of_encodes encodes
  exact ⟨assembly, symbols, rom, assembled, read, encodes, encodes.bounded fits, length, loaded⟩

end Machine

namespace CodeWriter

/-- The lines that a command is written to. -/
def lines (w : CodeWriter) (command : VmCommand) : List AssemblyLine :=
  (if w.annotate then [.comment command.text] else []) ++ (w.code command).map .instruction

theorem instructions_of_lines (w : CodeWriter) (command : VmCommand) :
    (w.lines command).filterMap AssemblyLine.instruction? = w.code command := by
  have only (code : List Instruction) :
      (code.map AssemblyLine.instruction).filterMap AssemblyLine.instruction? = code := by
    rw [List.filterMap_map]
    exact List.filterMap_some
  rw [lines, List.filterMap_append, only]
  split <;> rfl

theorem length_lines_le (w : CodeWriter) (command : VmCommand) :
    (w.lines command).length ≤ (w.code command).length + 1 := by
  rw [lines, List.length_append, List.length_map]
  split <;> simp [Nat.add_comm]

theorem comment_eq (w : CodeWriter) (text : String) : w.comment text =
    { w with written := (if w.annotate then [.comment text] else []) ++ w.written } := by
  unfold comment
  split <;> rfl

theorem code_written (w : CodeWriter) (written : List AssemblyLine) (command : VmCommand) :
    { w with written }.code command = w.code command := by
  cases command <;> rfl

theorem pass_written (w : CodeWriter) (written : List AssemblyLine) (command : VmCommand) :
    { w with written }.pass command = { w.pass command with written } := by
  unfold pass
  split <;> rfl

/-- Every command that is accepted is written, after what was written before. -/
theorem write_eq (w : CodeWriter) {command : VmCommand} (accepted : command.Accepted)
    (line : Nat) : w.write command line =
      (.ok (), { w.pass command with written := (w.lines command).reverse ++ w.written }) := by
  have written : w.write command line = (.ok (),
      ((w.comment command.text).emit
        (((w.comment command.text).code command).map .instruction)).pass command) := by
    unfold write
    split
    · exact absurd rfl accepted.1
    · rfl
  rw [written, comment_eq, code_written, emit, pass_written, pass_written, List.reverseAux_eq,
    lines, List.reverse_append, List.append_assoc]
  split <;> rfl

theorem write_ok (w : CodeWriter) {command : VmCommand} (accepted : command.Accepted) (line : Nat) :
    ∃ w', w.write command line = (.ok (), w') ∧
      w'.text = w.text ++ textOf (w.lines command) := by
  refine ⟨_, write_eq w accepted line, ?_⟩
  rw [text, List.reverse_append, List.reverse_reverse, textOf_append]
  rfl

/-- What a command adds to the text that is written. -/
def Writes (w : CodeWriter) (command : VmCommand) (fragment : String) : Prop :=
  ∃ line w', w.write command line = (.ok (), w') ∧ w'.text = w.text ++ fragment

theorem writes_lines (w : CodeWriter) {command : VmCommand} (accepted : command.Accepted) :
    w.Writes command (textOf (w.lines command)) :=
  ⟨0, write_ok w accepted 0⟩

theorem Writes.eq {w : CodeWriter} {command : VmCommand} {fragment : String}
    (writes : w.Writes command fragment) (accepted : command.Accepted) :
    fragment = textOf (w.lines command) := by
  obtain ⟨line, w', written, text⟩ := writes
  obtain ⟨same, written', text'⟩ := write_ok w accepted line
  obtain rfl : w' = same := (Prod.mk.inj (written.symm.trans written')).2
  rw [text, ← String.toList_inj, String.toList_append, String.toList_append] at text'
  exact String.toList_inj.mp (List.append_cancel_left text')

section Plain

/-- Legal instructions that are encoded and go on to the next one. -/
def plain (i : Instruction) : Bool := i.isLegal && i.isStraight && !i.isLabel

theorem plain_address {value : String} (legal : (Instruction.address value).isLegal = true) :
    plain (.address value) = true := by
  rw [plain, legal]
  rfl

theorem plain_number {n : Nat} (small : n ≤ Limits.address) :
    plain (.address (toString n)) = true := by
  refine plain_address ?_
  rw [Instruction.isLegal, Text.readNat_toString small]
  rfl

theorem plain_symbol {name : String} (symbol : Instruction.isSymbol name.toList = true) :
    plain (.address name) = true :=
  plain_address (Bool.or_eq_true_iff.mpr (.inr symbol))

variable {module : String} (named : Instruction.isSymbol module.toList = true) {segment : Segment}
  {index : Nat} (has : segment.Has index)

private theorem plain_base {base : String} (based : segment.base? = some base) :
    plain (.address base) = true := by
  cases segment with
  | local_ | argument | this_ | that =>
    cases based
    rfl
  | constant | temp | pointer | static => cases based

include named has

private theorem plain_direct (direct : segment.base? = none) (other : segment ≠ .constant) :
    plain (.address (directAddress module segment index)) = true := by
  cases segment with
  | constant => exact absurd rfl other
  | local_ | argument | this_ | that => cases direct
  | temp =>
    have inside : index < 8 := has.2 8 rfl
    refine plain_number ?_
    rw [Limits.tempBase, Limits.address]
    omega
  | pointer =>
    rw [directAddress]
    split <;> rfl
  | static => exact plain_symbol (isSymbol_static named index)

theorem plain_pushCode : (pushCode module segment index).all plain = true := by
  have pushes : pushD.all plain = true := by decide
  cases based : segment.base? with
  | some base =>
    rw [pushCode_of_base? based, List.all_append, pushes, Bool.and_true]
    have first := plain_base based
    have number := plain_number has.1
    split <;> simp only [List.all_cons, first, number] <;> rfl
  | none =>
    by_cases constant : segment = .constant
    · subst constant
      have code : pushCode module .constant index =
          .address (toString index) :: set "D" "A" :: pushD := rfl
      rw [code, List.all_cons, List.all_cons, pushes, plain_number has.1]
      rfl
    · rw [pushCode_of_direct based constant, List.all_cons, List.all_cons, pushes,
        plain_direct named has based constant]
      rfl

theorem plain_popCode (other : segment ≠ .constant) :
    (popCode module segment index).all plain = true := by
  have pops : popToD.all plain = true := by decide
  cases based : segment.base? with
  | some base =>
    rw [popCode_of_base? based, List.all_append, List.all_append, List.all_append, pops]
    have first := plain_base based
    have number := plain_number has.1
    have register : plain (.address addressRegister) = true := by decide +kernel
    split <;> simp only [List.all_cons, first, number, register] <;> rfl
  | none =>
    rw [popCode_of_direct based, List.all_append, pops, List.all_cons,
      plain_direct named has based other]
    rfl

omit named has in
theorem plain_operationCode {operation : Operation} (ordinary : operation ∉ [.eq, .gt, .lt])
    (number : Nat) : (operationCode number operation).all plain = true := by
  cases operation with
  | eq | gt | lt => simp at ordinary
  | _ => rfl

end Plain

end CodeWriter

end NandTools
