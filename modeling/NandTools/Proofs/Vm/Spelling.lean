import NandTools.Proofs.Vm.Phrase

/-! How a command is spelled: its text is read back as the command, so commands that are read are the
same when their texts are. -/
namespace NandTools

theorem Instruction.uncommented_of_unslashed {line : List Char} (plain : '/' ∉ line) :
    uncommented [] line = line := by
  refine (uncommented_spec line).unique ⟨[], (List.append_nil line).symm, .inl rfl, ?_⟩
  intro tail inside mark
  exact absurd (inside.subset (mark.subset List.mem_cons_self)) plain

namespace VmCommand

/-- The words that a command is written with. -/
def spelling : VmCommand → List (List Char)
  | arithmetic operation => [operation.text.toList]
  | push segment index => ["push".toList, segment.text.toList, (toString index).toList]
  | pop segment index => ["pop".toList, segment.text.toList, (toString index).toList]
  | label name => ["label".toList, name.toList]
  | goto name => ["goto".toList, name.toList]
  | ifGoto name => ["if-goto".toList, name.toList]
  | function name locals => ["function".toList, name.toList, (toString locals).toList]
  | call name args => ["call".toList, name.toList, (toString args).toList]
  | return_ => ["return".toList]

theorem toList_text (c : VmCommand) : c.text.toList = [' '].intercalate c.spelling := by
  cases c <;> simp [text, spelling, toString, List.intercalate_cons_cons]

/-- A word that is not cut: it holds no blank and no mark of a comment. -/
structure IsWhole (word : List Char) : Prop where
  nonempty : word ≠ []
  solid : word.all Instruction.isSolid = true

theorem words_of_whole {words : List (List Char)} (whole : ∀ word ∈ words, IsWhole word) :
    Text.words (Instruction.significant ([' '].intercalate words)) = words := by
  have solid : ∀ word ∈ words, ∀ c ∈ word, c ≠ '/' ∧ Text.isBlank c = false := by
    intro word member c among
    simpa [Instruction.isSolid] using List.all_eq_true.mp (whole word member).solid c among
  have plain : '/' ∉ [' '].intercalate words := by
    intro mark
    rcases Text.mem_of_intercalate mark with same | ⟨word, member, among⟩
    · exact absurd same (by decide)
    · exact (solid word member '/' among).1 rfl
  rw [Instruction.significant, Text.words_trim, Instruction.uncommented_of_unslashed plain]
  exact Text.words_intercalate (fun word member => (whole word member).nonempty)
    fun word member c among => (solid word member c among).2

/-- A command of the grammar is also spelled as the strict grammar has it. -/
theorem Phrase.strict_spelling {words : List (List Char)} {c : VmCommand}
    (phrase : Phrase Signed words c) : Phrase (Text.Numeral Limits.address) c.spelling c := by
  have plain {digits : List Char} {n : Nat} (number : Signed digits n) :
      Text.Numeral Limits.address (toString n).toList n :=
    Text.readNat_iff.mp (Text.readNat_toString number.inside)
  cases phrase with
  | arithmetic operation => exact .arithmetic operation
  | return_ => exact .return_
  | label symbol => exact .label symbol
  | goto symbol => exact .goto symbol
  | ifGoto symbol => exact .ifGoto symbol
  | function symbol number => exact .function symbol (plain number)
  | call symbol number => exact .call symbol (plain number)
  | push number inside => exact .push (plain number) inside
  | pop number inside writable => exact .pop (plain number) inside writable

/-- No word of the strict grammar is cut. -/
theorem Phrase.whole {words : List (List Char)} {c : VmCommand}
    (phrase : Phrase (Text.Numeral Limits.address) words c) : ∀ word ∈ words, IsWhole word := by
  have keyword {word : List Char} (nonempty : word ≠ [] := by decide)
    (solid : word.all Instruction.isSolid = true := by decide) : IsWhole word := ⟨nonempty, solid⟩
  have operations (operation : Operation) : IsWhole operation.text.toList := by
    cases operation <;> exact keyword
  have segments (segment : Segment) : IsWhole segment.text.toList := by
    cases segment <;> exact keyword
  have names {name : List Char} (symbol : Instruction.isSymbol name = true) : IsWhole name :=
    ⟨(Instruction.solid_of_symbol symbol).1, (Instruction.solid_of_symbol symbol).2⟩
  have numbers {digits : List Char} {n : Nat} (number : Text.Numeral Limits.address digits n) :
      IsWhole digits := by
    refine ⟨number.nonempty, List.all_eq_true.mpr fun c member => ?_⟩
    exact Instruction.isSolid_of_isSymbolChar
      (Instruction.isSymbolChar_of_isDigit (number.digit c member))
  cases phrase with
  | arithmetic operation => exact List.forall_mem_singleton.mpr (operations operation)
  | return_ => exact List.forall_mem_singleton.mpr keyword
  | label symbol | goto symbol | ifGoto symbol =>
    exact List.forall_mem_cons.mpr ⟨keyword, List.forall_mem_singleton.mpr (names symbol)⟩
  | function symbol number | call symbol number =>
    exact List.forall_mem_cons.mpr ⟨keyword, List.forall_mem_cons.mpr
      ⟨names symbol, List.forall_mem_singleton.mpr (numbers number)⟩⟩
  | push number _ | pop number _ _ =>
    exact List.forall_mem_cons.mpr ⟨keyword, List.forall_mem_cons.mpr
      ⟨segments _, List.forall_mem_singleton.mpr (numbers number)⟩⟩

/-- The text of a command that is read is read back as the command, on every line. So it is the
canonical form of the line: commands that are read have the same text only if they are the same. -/
theorem parseLine_text {raw : List Char} {line : Nat} {c : VmCommand}
    (parsed : parseLine raw line = .ok (some c)) :
    (∀ m, parseLine c.text.toList m = .ok (some c)) ∧
      ∀ raw' line' c', parseLine raw' line' = .ok (some c') → (c.text = c'.text ↔ c = c') := by
  have read {raw : List Char} {line : Nat} {c : VmCommand}
      (parsed : parseLine raw line = .ok (some c)) (m : Nat) :
      parseLine c.text.toList m = .ok (some c) := by
    have strict := (parseLine_some.mp parsed).strict_spelling
    rw [parseLine_some, toList_text, words_of_whole strict.whole]
    exact (phrase_strict.mp strict).1
  refine ⟨read parsed, fun raw' line' c' parsed' => ⟨fun same => ?_, congrArg text⟩⟩
  have back := read parsed line
  rw [same, read parsed' line] at back
  exact (Option.some.inj (Except.ok.inj back)).symm

/-- A line with a sign, leading zeros and a comment has the same canonical form as a plain one. -/
theorem parseLine_text_of_plain :
    parseLine "  push\tconstant +007  // seven".toList 3 = .ok (some (push .constant 7)) ∧
      (push .constant 7).text = "push constant 7" ∧
      parseLine "push constant 7".toList 9 = .ok (some (push .constant 7)) := by
  have parsed : parseLine "  push\tconstant +007  // seven".toList 3 =
      .ok (some (push .constant 7)) := rfl
  exact ⟨parsed, rfl, (parseLine_text parsed).1 9⟩

end VmCommand

end NandTools
