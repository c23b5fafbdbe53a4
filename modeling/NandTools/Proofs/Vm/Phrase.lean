import NandTools.Proofs.Assembly.Line
import NandTools.Proofs.Assembly.Listing
import NandTools.Proofs.Outcome
import NandTools.Proofs.Text.Numeral
import NandTools.Vm.Line

/-! The grammar of commands, over the words of a line. -/
namespace NandTools

theorem Segment.ofText?_iff {text : String} {segment : Segment} :
    ofText? text = some segment ↔ segment.text = text := by
  constructor
  · intro found
    unfold ofText? at found
    have same := List.find?_some found
    exact eq_of_beq same
  · rintro rfl
    cases segment <;> decide

theorem Operation.ofText?_iff {text : String} {operation : Operation} :
    ofText? text = some operation ↔ operation.text = text := by
  constructor
  · intro found
    unfold ofText? at found
    have same := List.find?_some found
    exact eq_of_beq same
  · rintro rfl
    cases operation <;> decide

/-- The indexes that a segment has cells for, where their number is fixed. -/
def Segment.Allows : Segment → Nat → Prop
  | temp, index => index < 8
  | pointer, index => index < 2
  | _, _ => True

theorem Segment.allows_iff {segment : Segment} {index : Nat} :
    segment.Allows index ↔ ∀ size, segment.size? = some size → index < size := by
  cases segment <;> simp [Allows, size?, Limits.tempCells]

namespace VmCommand

/-- The grammar of commands: a keyword and its operands, of which numbers are written as `Number`
allows. -/
inductive Phrase (Number : List Char → Nat → Prop) : List (List Char) → VmCommand → Prop
  | arithmetic (operation : Operation) :
    Phrase Number [operation.text.toList] (.arithmetic operation)
  | return_ : Phrase Number ["return".toList] .return_
  | label {name : String} (symbol : Instruction.isSymbol name.toList = true) :
    Phrase Number ["label".toList, name.toList] (.label name)
  | goto {name : String} (symbol : Instruction.isSymbol name.toList = true) :
    Phrase Number ["goto".toList, name.toList] (.goto name)
  | ifGoto {name : String} (symbol : Instruction.isSymbol name.toList = true) :
    Phrase Number ["if-goto".toList, name.toList] (.ifGoto name)
  | function {name : String} {digits : List Char} {count : Nat}
    (symbol : Instruction.isSymbol name.toList = true) (number : Number digits count) :
    Phrase Number ["function".toList, name.toList, digits] (.function name count)
  | call {name : String} {digits : List Char} {count : Nat}
    (symbol : Instruction.isSymbol name.toList = true) (number : Number digits count) :
    Phrase Number ["call".toList, name.toList, digits] (.call name count)
  | push {segment : Segment} {digits : List Char} {index : Nat} (number : Number digits index)
    (inside : segment.Allows index) :
    Phrase Number ["push".toList, segment.text.toList, digits] (.push segment index)
  | pop {segment : Segment} {digits : List Char} {index : Nat} (number : Number digits index)
    (inside : segment.Allows index) (writable : segment ≠ .constant) :
    Phrase Number ["pop".toList, segment.text.toList, digits] (.pop segment index)

/-- Numbers as they are read, with or without a sign. -/
abbrev Signed : List Char → Nat → Prop := Text.Signed Limits.address

theorem parseIndex_iff {text : List Char} {line index : Nat} :
    parseIndex text line = .ok index ↔ Signed text index := by
  rw [Signed, ← Text.readSigned_iff, parseIndex]
  cases Text.readSigned Limits.address text <;> simp

theorem line_of_parseIndex {text : List Char} {line : Nat} {e : VmError}
    (failed : parseIndex text line = .error e) : e.line? = some line := by
  unfold parseIndex at failed
  split at failed
  · cases failed
  · cases failed
    rfl

/-- A word that is a name is a symbol. -/
theorem isName_iff {word : List Char} (nonempty : word ≠ []) :
    isName word = Instruction.isSymbol word := by
  cases word with
  | nil => exact absurd rfl nonempty
  | cons c rest => rfl

namespace Words

variable {words : Words} {e : VmError} {c : VmCommand}

theorem line_of_bare {command : VmCommand} (failed : words.bare command = .error e) :
    e.line? = some words.line := by
  unfold bare at failed
  split at failed
  · cases failed
  · cases failed
    rfl

theorem bare_iff {command : VmCommand} :
    words.bare command = .ok c ↔ words.operands = [] ∧ command = c := by
  rw [bare]
  split
  · next empty => simp [List.isEmpty_iff.mp empty]
  · next given =>
    rw [List.isEmpty_iff] at given
    simp [given]

theorem line_of_cell (failed : words.cell = .error e) : e.line? = some words.line := by
  unfold cell at failed
  split at failed
  · split at failed
    · cases failed
      rfl
    · split at failed
      · next refused =>
        cases failed
        exact line_of_parseIndex refused
      · split at failed
        · split at failed
          · cases failed
            rfl
          · cases failed
        · cases failed
  · cases failed
    rfl

theorem cell_iff {segment : Segment} {index : Nat} : words.cell = .ok (segment, index) ↔
    ∃ digits, words.operands = [segment.text.toList, digits] ∧ Signed digits index ∧
      segment.Allows index := by
  constructor
  · intro read
    unfold cell at read
    split at read
    · next name digits operands =>
      split at read
      · cases read
      · next known =>
        have named := congrArg String.toList (Segment.ofText?_iff.mp known)
        rw [String.toList_ofList] at named
        split at read
        · cases read
        · next number =>
          have number := parseIndex_iff.mp number
          split at read
          · next size sized =>
            split at read
            · cases read
            · next inside =>
              cases read
              refine ⟨digits, named ▸ operands, number, Segment.allows_iff.mpr ?_⟩
              simpa [sized] using inside
          · next unsized =>
            cases read
            refine ⟨digits, named ▸ operands, number, Segment.allows_iff.mpr ?_⟩
            simp [unsized]
    · cases read
  · rintro ⟨digits, operands, number, inside⟩
    have known : Segment.ofText? (.ofList segment.text.toList) = some segment := by
      rw [String.ofList_toList, Segment.ofText?_iff]
    rw [cell, operands]
    dsimp only
    rw [known]
    dsimp only
    rw [parseIndex_iff.mpr number]
    dsimp only
    split
    · next size sized =>
      rw [if_neg (Nat.not_le_of_lt (Segment.allows_iff.mp inside size sized))]
    · rfl

theorem line_of_name (failed : words.name = .error e) : e.line? = some words.line := by
  unfold name at failed
  split at failed
  · split at failed
    · cases failed
    · cases failed
      rfl
  · cases failed
    rfl

theorem line_of_nameAndCount (failed : words.nameAndCount = .error e) :
    e.line? = some words.line := by
  unfold nameAndCount at failed
  split at failed
  · split at failed
    · exact line_of_parseIndex (Except.error_of_map failed)
    · cases failed
      rfl
  · cases failed
    rfl

/-- Every error is about the line of the words. -/
theorem line_of_command {keyword : String} (failed : words.command keyword = .error e) :
    e.line? = some words.line := by
  unfold command at failed
  split at failed
  · exact line_of_cell (Except.error_of_map failed)
  · split at failed
    · next refused =>
      cases failed
      exact line_of_cell refused
    · cases failed
      rfl
    · cases failed
  · exact line_of_name (Except.error_of_map failed)
  · exact line_of_name (Except.error_of_map failed)
  · exact line_of_name (Except.error_of_map failed)
  · exact line_of_nameAndCount (Except.error_of_map failed)
  · exact line_of_nameAndCount (Except.error_of_map failed)
  · exact line_of_bare failed
  · split at failed
    · exact line_of_bare failed
    · cases failed
      rfl

section Solid

variable (solid : ∀ operand ∈ words.operands, operand ≠ [])
include solid

theorem name_iff {name : String} : words.name = .ok name ↔
    words.operands = [name.toList] ∧ Instruction.isSymbol name.toList = true := by
  constructor
  · intro read
    unfold Words.name at read
    split at read
    · next operand operands =>
      split at read
      · next named =>
        cases read
        rw [String.toList_ofList, operands, ← isName_iff (solid operand (by simp [operands]))]
        exact ⟨rfl, named⟩
      · cases read
    · cases read
  · rintro ⟨operands, symbol⟩
    rw [← isName_iff (solid name.toList (by simp [operands]))] at symbol
    rw [Words.name, operands]
    simp [symbol]

theorem nameAndCount_iff {name : String} {count : Nat} :
    words.nameAndCount = .ok (name, count) ↔ ∃ digits, words.operands = [name.toList, digits] ∧
      Instruction.isSymbol name.toList = true ∧ Signed digits count := by
  constructor
  · intro read
    unfold nameAndCount at read
    split at read
    · next operand digits operands =>
      split at read
      · next named =>
        obtain ⟨index, number, same⟩ := Except.ok_of_map read
        cases same
        rw [String.toList_ofList, operands, ← isName_iff (solid operand (by simp [operands]))]
        exact ⟨digits, rfl, named, parseIndex_iff.mp number⟩
      · cases read
    · cases read
  · rintro ⟨digits, operands, symbol, number⟩
    rw [← isName_iff (solid name.toList (by simp [operands]))] at symbol
    rw [nameAndCount, operands]
    simp only [symbol, parseIndex_iff.mpr number]
    simp [Except.map]

theorem command_iff {keyword : String} :
    words.command keyword = .ok c ↔ Phrase Signed (keyword.toList :: words.operands) c := by
  constructor
  · intro read
    unfold command at read
    split at read
    · obtain ⟨⟨segment, index⟩, found, rfl⟩ := Except.ok_of_map read
      obtain ⟨digits, operands, number, inside⟩ := cell_iff.mp found
      rw [operands]
      exact .push number inside
    · split at read
      · cases read
      · cases read
      · next segment index writable read =>
        cases read
        obtain ⟨digits, operands, number, inside⟩ := cell_iff.mp read
        rw [operands]
        exact .pop number inside writable
    · obtain ⟨name, found, rfl⟩ := Except.ok_of_map read
      obtain ⟨operands, symbol⟩ := (name_iff solid).mp found
      rw [operands]
      exact .label symbol
    · obtain ⟨name, found, rfl⟩ := Except.ok_of_map read
      obtain ⟨operands, symbol⟩ := (name_iff solid).mp found
      rw [operands]
      exact .goto symbol
    · obtain ⟨name, found, rfl⟩ := Except.ok_of_map read
      obtain ⟨operands, symbol⟩ := (name_iff solid).mp found
      rw [operands]
      exact .ifGoto symbol
    · obtain ⟨⟨name, count⟩, found, rfl⟩ := Except.ok_of_map read
      obtain ⟨digits, operands, symbol, number⟩ := (nameAndCount_iff solid).mp found
      rw [operands]
      exact .function symbol number
    · obtain ⟨⟨name, count⟩, found, rfl⟩ := Except.ok_of_map read
      obtain ⟨digits, operands, symbol, number⟩ := (nameAndCount_iff solid).mp found
      rw [operands]
      exact .call symbol number
    · obtain ⟨operands, rfl⟩ := bare_iff.mp read
      rw [operands]
      exact .return_
    · split at read
      · next operation known =>
        obtain ⟨operands, rfl⟩ := bare_iff.mp read
        rw [operands, ← Operation.ofText?_iff.mp known]
        exact .arithmetic operation
      · cases read
  · intro phrase
    generalize spelled : keyword.toList :: words.operands = spelling at phrase
    have parts {word : String} {operands : List (List Char)}
        (same : keyword.toList :: words.operands = word.toList :: operands) :
        keyword = word ∧ words.operands = operands :=
      (List.cons.inj same).imp_left String.toList_inj.mp
    cases phrase with
    | arithmetic operation =>
      obtain ⟨rfl, operands⟩ := parts spelled
      have read := bare_iff.mpr ⟨operands, Eq.refl (VmCommand.arithmetic operation)⟩
      cases operation <;> exact read
    | return_ =>
      obtain ⟨rfl, operands⟩ := parts spelled
      exact bare_iff.mpr ⟨operands, rfl⟩
    | label symbol =>
      obtain ⟨rfl, operands⟩ := parts spelled
      exact congrArg (Except.map _) ((name_iff solid).mpr ⟨operands, symbol⟩)
    | goto symbol =>
      obtain ⟨rfl, operands⟩ := parts spelled
      exact congrArg (Except.map _) ((name_iff solid).mpr ⟨operands, symbol⟩)
    | ifGoto symbol =>
      obtain ⟨rfl, operands⟩ := parts spelled
      exact congrArg (Except.map _) ((name_iff solid).mpr ⟨operands, symbol⟩)
    | function symbol number =>
      obtain ⟨rfl, operands⟩ := parts spelled
      exact congrArg (Except.map _) ((nameAndCount_iff solid).mpr ⟨_, operands, symbol, number⟩)
    | call symbol number =>
      obtain ⟨rfl, operands⟩ := parts spelled
      exact congrArg (Except.map _) ((nameAndCount_iff solid).mpr ⟨_, operands, symbol, number⟩)
    | push number inside =>
      obtain ⟨rfl, operands⟩ := parts spelled
      exact congrArg (Except.map _) (cell_iff.mpr ⟨_, operands, number, inside⟩)
    | pop number inside writable =>
      obtain ⟨rfl, operands⟩ := parts spelled
      simp only [command, cell_iff.mpr ⟨_, operands, number, inside⟩]

end Solid

end Words

private theorem unsigned_of_symbol {name : List Char} (symbol : Instruction.isSymbol name = true) :
    name.head? ≠ some '+' := by
  intro head
  have fits := (Instruction.symbolChars_of_symbol symbol).2
  exact absurd (List.all_eq_true.mp fits '+' (List.mem_of_mem_head? head)) (by decide)

/-- A sign can only stand before a number, and a word that begins with a sign is no other word. -/
theorem phrase_strict {words : List (List Char)} {c : VmCommand} :
    Phrase (Text.Numeral Limits.address) words c ↔
      Phrase Signed words c ∧ ∀ word ∈ words, word.head? ≠ some '+' := by
  have operations (operation : Operation) : operation.text.toList.head? ≠ some '+' := by
    cases operation <;> decide
  have segments (segment : Segment) : segment.text.toList.head? ≠ some '+' := by
    cases segment <;> decide
  constructor
  · intro phrase
    cases phrase with
    | arithmetic operation => exact ⟨.arithmetic operation, by simp [operations]⟩
    | return_ => exact ⟨.return_, by simp⟩
    | label symbol => exact ⟨.label symbol, by simp [unsigned_of_symbol symbol]⟩
    | goto symbol => exact ⟨.goto symbol, by simp [unsigned_of_symbol symbol]⟩
    | ifGoto symbol => exact ⟨.ifGoto symbol, by simp [unsigned_of_symbol symbol]⟩
    | function symbol number =>
      exact ⟨.function symbol (.plain number),
        by simp [unsigned_of_symbol symbol, number.unsigned]⟩
    | call symbol number =>
      exact ⟨.call symbol (.plain number), by simp [unsigned_of_symbol symbol, number.unsigned]⟩
    | push number inside =>
      exact ⟨.push (.plain number) inside, by simp [segments, number.unsigned]⟩
    | pop number inside writable =>
      exact ⟨.pop (.plain number) inside writable, by simp [segments, number.unsigned]⟩
  · rintro ⟨phrase, unsigned⟩
    have plain {digits : List Char} {n : Nat} (number : Signed digits n) (among : digits ∈ words) :
        Text.Numeral Limits.address digits n := Text.numeral_iff.mpr ⟨number, unsigned digits among⟩
    cases phrase with
    | arithmetic operation => exact .arithmetic operation
    | return_ => exact .return_
    | label symbol => exact .label symbol
    | goto symbol => exact .goto symbol
    | ifGoto symbol => exact .ifGoto symbol
    | function symbol number => exact .function symbol (plain number (by simp))
    | call symbol number => exact .call symbol (plain number (by simp))
    | push number inside => exact .push (plain number (by simp)) inside
    | pop number inside writable => exact .pop (plain number (by simp)) inside writable

theorem parseLine_none {raw : List Char} {line : Nat} :
    parseLine raw line = .ok none ↔ Text.words (Instruction.significant raw) = [] := by
  unfold parseLine
  dsimp only
  split
  · next empty => simp [empty]
  · next keyword operands words =>
    rw [words]
    refine iff_of_false (fun parsed => ?_) (List.cons_ne_nil _ _)
    obtain ⟨command, _, same⟩ := Except.ok_of_map parsed
    cases same

theorem parseLine_some {raw : List Char} {line : Nat} {c : VmCommand} :
    parseLine raw line = .ok (some c) ↔
      Phrase Signed (Text.words (Instruction.significant raw)) c := by
  have solid : ∀ word ∈ Text.words (Instruction.significant raw), word ≠ [] := by
    intro word among
    simpa using (List.mem_filter.mp among).2
  unfold parseLine
  dsimp only
  split
  · next empty =>
    rw [empty]
    exact iff_of_false nofun nofun
  · next keyword operands words =>
    rw [words] at solid ⊢
    have read : Words.command (.ofList keyword) ⟨Instruction.significant raw, line, operands⟩ =
        .ok c ↔ Phrase Signed ((String.ofList keyword).toList :: operands) c :=
      Words.command_iff fun word member => solid word (List.mem_cons_of_mem _ member)
    rw [String.toList_ofList] at read
    rw [← read]
    constructor
    · intro parsed
      obtain ⟨command, found, same⟩ := Except.ok_of_map parsed
      cases same
      exact found
    · intro found
      rw [found]
      rfl

theorem line_of_parseLine {raw : List Char} {line : Nat} {e : VmError}
    (failed : parseLine raw line = .error e) : e.line? = some line := by
  unfold parseLine at failed
  dsimp only at failed
  split at failed
  · cases failed
  · exact Words.line_of_command (Except.error_of_map failed)

/-- What is read of a line depends on the words before its comment: nothing when there are none,
and a command when they are a phrase of the grammar, where a number may have a plus sign. On a line
without such signs the grammar is the strict one, and every error is about the line. -/
theorem parseLine_language (raw : List Char) (line : Nat) : ∃ front words,
    Instruction.Uncommented raw front ∧ Text.Spaced words front ∧
      (parseLine raw line = .ok none ↔ words = []) ∧
      (∀ c, parseLine raw line = .ok (some c) ↔ Phrase Signed words c) ∧
      (∀ c, Phrase (Text.Numeral Limits.address) words c ↔
        parseLine raw line = .ok (some c) ∧ ∀ word ∈ words, word.head? ≠ some '+') ∧
      ∀ e, parseLine raw line = .error e → e.line? = some line := by
  have same : Text.words (Instruction.significant raw) =
      Text.words (Instruction.uncommented [] raw) := Text.words_trim _
  refine ⟨_, _, Instruction.uncommented_spec raw, Text.spaced_words _, ?_, fun c => ?_, fun c => ?_,
    fun e => line_of_parseLine⟩
  · rw [parseLine_none, same]
  · rw [parseLine_some, same]
  · rw [parseLine_some, same, phrase_strict]

/-- An index with a sign is read, which the strict grammar does not allow. -/
theorem parseLine_of_sign :
    parseLine "push constant +7".toList 1 = .ok (some (push .constant 7)) ∧
      ¬ Phrase (Text.Numeral Limits.address)
        ["push".toList, "constant".toList, "+7".toList] (push .constant 7) := by
  constructor
  · rfl
  · intro strict
    exact (phrase_strict.mp strict).2 "+7".toList (by simp) rfl

end VmCommand

end NandTools
