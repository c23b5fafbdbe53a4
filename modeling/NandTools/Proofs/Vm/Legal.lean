import NandTools.Proofs.Vm.Fragment

/-! The code of every command can be encoded, unless it is a call with too many arguments. -/
namespace NandTools

/-- Whether a call can subtract the size of its frame from the top of the stack. -/
def VmCommand.isMeasured : VmCommand → Bool
  | call _ args => args + 5 ≤ Limits.address
  | _ => true

theorem Instruction.isLegal_of_symbol {name : String} (symbol : isSymbol name.toList = true) :
    (address name).isLegal = true := Bool.or_eq_true_iff.mpr (.inr symbol)

namespace CodeWriter

open Instruction (address label)

theorem legal_of_plain {code : List Instruction} (each : code.all plain = true) :
    code.all Instruction.isLegal = true := by
  refine List.all_eq_true.mpr fun i member => ?_
  have both := List.all_eq_true.mp each i member
  simp only [plain, Bool.and_eq_true] at both
  exact both.1.1

/-- The labels of a comparison. -/
def outcomes (name : String) (number : Nat) : List String :=
  [s!"IS_{name}_{number}", s!"END_{name}_{number}"]

section Outcomes

variable {name label : String} {number : Nat}

/-- An outcome ends in its number. -/
theorem toList_outcome (outcome : label ∈ outcomes name number) :
    ∃ kind ∈ ["IS_", "END_"], label.toList =
      kind.toList ++ name.toList ++ '_' :: (toString number).toList := by
  rw [outcomes, List.mem_cons, List.mem_singleton] at outcome
  rcases outcome with rfl | rfl
  · exact ⟨"IS_", by simp, by simp [toString]⟩
  · exact ⟨"END_", by simp, by simp [toString]⟩

theorem isSymbol_outcome (fits : name.toList.all Instruction.isSymbolChar = true)
    (outcome : label ∈ outcomes name number) : Instruction.isSymbol label.toList = true := by
  have kinds : ∀ kind ∈ ["IS_", "END_"], Instruction.isSymbol kind.toList = true := by decide
  obtain ⟨kind, listed, chars⟩ := toList_outcome outcome
  have tail : (name.toList ++ '_' :: (toString number).toList).all Instruction.isSymbolChar =
      true := by
    rw [List.all_append, List.all_cons, fits, Instruction.isSymbolChar_of_toString number]
    rfl
  rw [chars, List.append_assoc]
  exact Instruction.isSymbol_append (kinds kind listed) tail

theorem isSymbol_compare (fits : name.toList.all Instruction.isSymbolChar = true) (number : Nat) :
    Instruction.isSymbol (s!"IS_{name}_{number}").toList = true ∧
      Instruction.isSymbol (s!"END_{name}_{number}").toList = true :=
  ⟨isSymbol_outcome fits List.mem_cons_self,
    isSymbol_outcome fits (List.mem_cons_of_mem _ List.mem_cons_self)⟩

theorem nodup_outcomes (name : String) (number : Nat) : (outcomes name number).Nodup := by
  rw [outcomes]
  refine List.pairwise_cons.mpr ⟨fun other member same => ?_, List.pairwise_singleton _ _⟩
  have heads := congrArg (fun label : String => label.toList.head?) same
  rw [List.mem_singleton.mp member] at heads
  simp [toString] at heads

end Outcomes

theorem legal_compare {name jump : String}
    (fits : name.toList.all Instruction.isSymbolChar = true)
    (known : (Mnemonic.jumpBits? jump).isSome = true) (number : Nat) :
    (compare name jump number).all Instruction.isLegal = true := by
  obtain ⟨yes, done⟩ := isSymbol_compare fits number
  have landing : (Instruction.label s!"IS_{name}_{number}").isLegal = true := yes
  have finish : (Instruction.label s!"END_{name}_{number}").isLegal = true := done
  have jumping : (goto "D" jump).isLegal = true := by
    rw [goto, Instruction.isLegal, known]
    rfl
  simp only [compare, List.all_append, List.all_cons, landing, finish,
    Instruction.isLegal_of_symbol yes, Instruction.isLegal_of_symbol done, jumping]
  rfl

theorem toList_localLabel {w : CodeWriter} {function : String} (inside : w.function? = some function)
    (name : String) : (w.localLabel name).toList = function.toList ++ '$' :: name.toList := by
  rw [localLabel, inside]
  simp [toString]

theorem toList_returnLabel (w : CodeWriter) : w.returnLabel.toList =
    (w.function?.getD "bootstrap").toList ++ '$' :: ("ret.".toList ++ (toString w.calls).toList) := by
  simp [returnLabel, toString]

section Names

variable {w : CodeWriter} (function : ∀ name ∈ w.function?, Instruction.isSymbol name.toList = true)
include function

theorem isSymbol_localLabel {name : String} (symbol : Instruction.isSymbol name.toList = true) :
    Instruction.isSymbol (w.localLabel name).toList = true := by
  cases inside : w.function? with
  | none =>
    rw [localLabel, inside]
    exact symbol
  | some function' =>
    rw [toList_localLabel inside]
    refine Instruction.isSymbol_append (function _ inside) ?_
    rw [List.all_cons, (Instruction.symbolChars_of_symbol symbol).2]
    rfl

theorem isSymbol_returnLabel : Instruction.isSymbol w.returnLabel.toList = true := by
  have caller : Instruction.isSymbol (w.function?.getD "bootstrap").toList = true := by
    cases inside : w.function? with
    | none => decide
    | some name => exact function name inside
  rw [toList_returnLabel]
  refine Instruction.isSymbol_append caller ?_
  rw [List.all_cons, List.all_append, Instruction.isSymbolChar_of_toString]
  decide

end Names

theorem legal_functionCode {name : String} (symbol : Instruction.isSymbol name.toList = true)
    (locals : Nat) : (functionCode name locals).all Instruction.isLegal = true := by
  rw [functionCode, List.all_cons, Bool.and_eq_true]
  have block : [address "SP", set "A" "M", set "M" "0", address "SP", set "M" "M+1"].all
      Instruction.isLegal = true := by decide
  refine ⟨symbol, List.all_eq_true.mpr fun i member => ?_⟩
  obtain ⟨code, among, inside⟩ := List.mem_flatten.mp member
  rw [(List.mem_replicate.mp among).2] at inside
  exact List.all_eq_true.mp block i inside

/-- Everything in a call can be encoded but, when it is too large, the size of its frame. -/
theorem legal_or_size_of_callCode {returnLabel name : String} (args : Nat)
    (returns : Instruction.isSymbol returnLabel.toList = true)
    (callee : Instruction.isSymbol name.toList = true) :
    ∀ i ∈ callCode returnLabel name args,
      i.isLegal = true ∨ i = address (toString (args + 5)) := by
  have toReturn := Instruction.isLegal_of_symbol returns
  have toCallee := Instruction.isLegal_of_symbol callee
  have back : (label returnLabel).isLegal = true := returns
  have saves : (pushD ++ ["LCL", "ARG", "THIS", "THAT"].flatMap fun register =>
      [address register, set "D" "M"] ++ pushD).all Instruction.isLegal = true := by decide
  rw [List.all_append, Bool.and_eq_true, List.all_eq_true, List.all_eq_true] at saves
  simp only [callCode, List.forall_mem_append, List.forall_mem_cons]
  exact ⟨⟨⟨⟨.inl toReturn, .inl rfl, nofun⟩, fun i member => .inl (saves.1 i member)⟩,
    fun i member => .inl (saves.2 i member)⟩, .inl rfl, .inl rfl, .inr trivial, .inl rfl, .inl rfl,
    .inl rfl, .inl rfl, .inl rfl, .inl rfl, .inl rfl, .inl toCallee, .inl rfl, .inl back, nofun⟩

theorem readable_of_legal_or_size {i : Instruction} {n : Nat}
    (either : i.isLegal = true ∨ i = address (toString n)) : i.isReadable = true := by
  rcases either with legal | rfl
  · exact Instruction.isReadable_of_legal legal
  · exact Instruction.isReadable_address (Text.toString_ne_nil n)
      (Instruction.isSymbolChar_of_toString n)

theorem size_mem_callCode (returnLabel name : String) (args : Nat) :
    address (toString (args + 5)) ∈ callCode returnLabel name args := by
  simp [callCode]

theorem legal_returnCode : ∀ i ∈ returnCode, i.isLegal = true := by decide +kernel

/-- Everything that a command is written to can be encoded but, when it is too large, the size of
the frame of a call. -/
theorem legal_or_size_of_code {w : CodeWriter}
    (module : Instruction.isSymbol w.module.toList = true)
    (function : ∀ name ∈ w.function?, Instruction.isSymbol name.toList = true)
    {command : VmCommand} (accepted : command.Accepted) :
    ∀ i ∈ w.code command, i.isLegal = true ∨
      ∃ name args, command = .call name args ∧ i = address (toString (args + 5)) := by
  have legal (each : (w.code command).all Instruction.isLegal = true) (i : Instruction)
      (member : i ∈ w.code command) : i.isLegal = true ∨
        ∃ name args, command = .call name args ∧ i = address (toString (args + 5)) :=
    .inl (List.all_eq_true.mp each i member)
  cases command with
  | arithmetic operation =>
    refine legal ?_
    cases operation with
    | eq => exact legal_compare (by decide) (by decide) w.comparisons
    | gt => exact legal_compare (by decide) (by decide) w.comparisons
    | lt => exact legal_compare (by decide) (by decide) w.comparisons
    | _ => rfl
  | push segment index => exact legal (legal_of_plain (plain_pushCode module accepted))
  | pop segment index =>
    exact legal (legal_of_plain (plain_popCode module accepted.2 accepted.1))
  | label name =>
    refine legal ?_
    rw [code, List.all_cons]
    exact Bool.and_eq_true_iff.mpr ⟨isSymbol_localLabel function accepted, rfl⟩
  | goto name =>
    have known := Instruction.isLegal_of_symbol (isSymbol_localLabel function accepted)
    refine legal ?_
    simp only [code, List.all_cons, known]
    rfl
  | ifGoto name =>
    have known := Instruction.isLegal_of_symbol (isSymbol_localLabel function accepted)
    refine legal ?_
    simp only [code, List.all_append, List.all_cons, known]
    rfl
  | function name locals => exact legal (legal_functionCode accepted.1 locals)
  | call name args =>
    intro i member
    have either := legal_or_size_of_callCode args (isSymbol_returnLabel function) accepted.1 i member
    exact either.imp_right fun same => ⟨name, args, rfl, same⟩
  | return_ => exact legal (List.all_eq_true.mpr legal_returnCode)

/-- Lines are read as they were written. -/
theorem printable_lines {w : CodeWriter} {command : VmCommand} (accepted : command.Accepted)
    (readable : ∀ i ∈ w.code command, i.isReadable = true) :
    ∀ line ∈ w.lines command, line.isPrintable = true := by
  intro line member
  rcases List.mem_append.mp member with comment | instruction
  · split at comment
    · rw [List.mem_singleton.mp comment]
      simpa [AssemblyLine.isPrintable] using VmCommand.single_text accepted
    · cases comment
  · obtain ⟨i, among, rfl⟩ := List.mem_map.mp instruction
    exact readable i among

end CodeWriter

end NandTools
