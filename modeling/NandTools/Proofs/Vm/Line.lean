import NandTools.Proofs.Vm.Meaning
import NandTools.Proofs.Vm.Phrase

/-! What is known of the commands that are read. -/
namespace NandTools.VmCommand

/-- Names are symbols, and numbers can be written into an instruction. -/
def Accepted : VmCommand → Prop
  | push segment index => segment.Has index
  | pop segment index => segment ≠ .constant ∧ segment.Has index
  | label name | goto name | ifGoto name => Instruction.isSymbol name.toList = true
  | function name count | call name count =>
    Instruction.isSymbol name.toList = true ∧ count ≤ Limits.address
  | arithmetic _ | return_ => True

private theorem single_of_symbolChars {text : List Char}
    (fits : text.all Instruction.isSymbolChar = true) : '\n' ∉ text := by
  intro member
  exact absurd (List.all_eq_true.mp fits _ member) (by decide)

/-- The text of a command is one line. -/
theorem single_text {c : VmCommand} (accepted : c.Accepted) : '\n' ∉ c.text.toList := by
  have digits (n : Nat) : '\n' ∉ Nat.toDigits 10 n := by
    rw [← Text.toList_toString]
    exact single_of_symbolChars (Instruction.isSymbolChar_of_toString n)
  have named {name : String} (symbol : Instruction.isSymbol name.toList = true) :
      '\n' ∉ name.toList :=
    fun member => absurd (List.all_eq_true.mp (Instruction.solid_of_symbol symbol).2 _ member)
      (by decide)
  cases c with
  | arithmetic operation => cases operation <;> decide
  | push segment index => cases segment <;> simp [text, Segment.text, toString, digits]
  | pop segment index => cases segment <;> simp [text, Segment.text, toString, digits]
  | label name => simp [text, toString, named accepted]
  | goto name => simp [text, toString, named accepted]
  | ifGoto name => simp [text, toString, named accepted]
  | function name count => simp [text, toString, named accepted.1, digits]
  | call name count => simp [text, toString, named accepted.1, digits]
  | return_ => decide

/-- What the grammar allows is accepted. -/
theorem Phrase.accepted {words : List (List Char)} {c : VmCommand} (phrase : Phrase Signed words c) :
    c.Accepted := by
  cases phrase with
  | arithmetic operation => trivial
  | return_ => trivial
  | label symbol => exact symbol
  | goto symbol => exact symbol
  | ifGoto symbol => exact symbol
  | function symbol number => exact ⟨symbol, number.inside⟩
  | call symbol number => exact ⟨symbol, number.inside⟩
  | push number inside => exact ⟨number.inside, Segment.allows_iff.mp inside⟩
  | pop number inside writable => exact ⟨writable, number.inside, Segment.allows_iff.mp inside⟩

theorem accepted_of_parseLine {raw : List Char} {line : Nat} {c : VmCommand}
    (parsed : parseLine raw line = .ok (some c)) : c.Accepted :=
  (parseLine_some.mp parsed).accepted

end NandTools.VmCommand
