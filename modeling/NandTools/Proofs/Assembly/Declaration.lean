import Mathlib.Data.List.Basic
import NandTools.Proofs.Assembly.Rejection

/-! The labels that a text declares. Texts need not be readable as a whole. -/
namespace NandTools

namespace Instruction

/-- The label that a line declares. -/
def lineLabel? (line : List Char) : Option String :=
  (parse (significant line) 0).toOption.bind declared?

/-- The labels that the lines of a text declare. -/
def declaredIn (text : List Char) : List String := (Text.lines text).filterMap lineLabel?

/-- A text that can be read declares the labels among its instructions. -/
theorem declaredIn_of_read? {text : List Char} {code : List Instruction}
    (read : read? text = some code) : declaredIn text = code.filterMap declared? := by
  rw [read?_eq] at read
  rw [declaredIn]
  generalize Text.lines text = lines at read ⊢
  induction lines generalizing code with
  | nil =>
    cases read
    rfl
  | cons line lines ih =>
    rw [List.map_cons, List.filter_cons] at read
    split at read
    · rw [List.mapM_cons] at read
      obtain ⟨i, parsed, read⟩ := Option.bind_eq_some_iff.mp read
      obtain ⟨rest, later, same⟩ := Option.bind_eq_some_iff.mp read
      cases same
      rw [List.filterMap_cons, List.filterMap_cons, ih later, lineLabel?, parsed]
      rfl
    · next blank =>
      have empty : significant line = [] := by simpa using blank
      have none : lineLabel? line = none := by
        rw [lineLabel?, empty]
        rfl
      rw [List.filterMap_cons_none none, ih read]

private theorem isPrefix_uncommented (seen text : List Char) :
    uncommented seen text <+: seen.reverse ++ text := by
  induction seen, text using uncommented.induct with
  | case1 seen rest => exact List.prefix_append _ _
  | case2 seen c rest other ih =>
    rw [uncommented]
    · rwa [List.reverse_cons, List.append_assoc] at ih
    · exact other
  | case3 seen =>
    simp only [uncommented, List.append_nil, List.prefix_refl]

private theorem isPrefix_significant {line value : List Char} (front : line <+: '@' :: value) :
    significant line <+: '@' :: value := by
  have cut : uncommented [] line <+: '@' :: value := (isPrefix_uncommented [] line).trans front
  rw [significant, Text.trim]
  rcases List.prefix_cons_iff.mp cut with empty | ⟨rest, chars, _⟩
  · rw [empty]
    exact List.nil_prefix
  · rw [chars, List.dropWhile_cons_of_neg (by decide), ← chars]
    exact (Text.isPrefix_trimEnd _).trans cut

/-- A line that loads a value declares nothing, whatever the value is. -/
theorem lineLabel?_of_address {line value : List Char} (front : line <+: '@' :: value) :
    lineLabel? line = none := by
  rw [lineLabel?]
  rcases List.prefix_cons_iff.mp (isPrefix_significant front) with empty | ⟨rest, chars, _⟩
  · rw [empty]
    rfl
  · rw [chars, parse]
    split <;> rfl

end Instruction

namespace AssemblyLine

/-- Whether a line stays one line, which declares the label of its instruction. -/
structure Declares (line : AssemblyLine) : Prop where
  single : '\n' ∉ line.text.toList
  label : Instruction.lineLabel? (Text.dropReturn line.text.toList) =
    line.instruction?.bind Instruction.declared?

theorem declares_of_printable {line : AssemblyLine} (printable : line.isPrintable = true) :
    line.Declares where
  single := single_of_printable printable
  label := by
    rw [Instruction.lineLabel?, significant_of_printable printable]
    cases line with
    | comment text => rfl
    | instruction i =>
      have parsed := Instruction.parse_text (i := i) printable 0
      rw [instruction?, Option.map_some, Option.getD_some, parsed]
      rfl

theorem toList_address (value : String) :
    (instruction (.address value)).text.toList = '@' :: value.toList := by
  simp [AssemblyLine.text, Instruction.text, toString]

/-- Lines that stay one line: what they load need not be a symbol. -/
inductive Unbroken : AssemblyLine → Prop
  | printable {line : AssemblyLine} (printable : line.isPrintable = true) : Unbroken line
  | address {value : String} (single : '\n' ∉ value.toList) :
    Unbroken (instruction (.address value))

theorem Unbroken.single {line : AssemblyLine} (unbroken : line.Unbroken) :
    '\n' ∉ line.text.toList := by
  cases unbroken with
  | printable printable => exact single_of_printable printable
  | address single =>
    rw [toList_address, List.mem_cons, not_or]
    exact ⟨by decide, single⟩

theorem Unbroken.declares {line : AssemblyLine} (unbroken : line.Unbroken) : line.Declares where
  single := unbroken.single
  label := by
    cases unbroken with
    | printable printable => exact (declares_of_printable printable).label
    | address single =>
      rw [toList_address]
      exact Instruction.lineLabel?_of_address (Text.isPrefix_dropReturn _)

end AssemblyLine

namespace Instruction

/-- Lines that are written declare the labels among them. -/
theorem declaredIn_textOf {lines : List AssemblyLine} (each : ∀ line ∈ lines, line.Declares) :
    declaredIn (CodeWriter.textOf lines).toList =
      (lines.filterMap AssemblyLine.instruction?).filterMap declared? := by
  rw [declaredIn, CodeWriter.lines_textOf fun line among => (each line among).single,
    List.filterMap_map, List.filterMap_filterMap]
  exact List.filterMap_congr fun line member => (each line member).label

end Instruction

namespace Assembly

variable {source : List Char}

/-- Whatever is assembled declares every label once. -/
theorem nodup_of_assemble {assembly : Assembly}
    (assembled : (assemble .initial source).1 = .ok assembly) :
    (Instruction.declaredIn source).Nodup := by
  rw [assemble] at assembled
  split at assembled
  · cases assembled
  · next program parsed =>
    rw [Instruction.declaredIn_of_read? (Instruction.read?_of_parseProgram parsed)]
    split at assembled
    · cases assembled
    · next symbols bound =>
      exact nodup_of_bindLabels bound

variable {label : String} {line first : Nat}

private theorem parse_ne_duplicate (text : List Char) (number : Nat) :
    Instruction.parse text number ≠ .error (.duplicateLabel label line first) := by
  intro failed
  unfold Instruction.parse at failed
  split at failed
  · dsimp only at failed
    split at failed <;> cases failed
  · split at failed <;> cases failed
  · cases failed

private theorem parseProgram_ne_duplicate :
    Instruction.parseProgram source ≠ .error (.duplicateLabel label line first) := by
  intro failed
  rw [Instruction.parseProgram] at failed
  obtain ⟨⟨number, text⟩, _, failed⟩ := Except.error_of_mapM failed
  dsimp only at failed
  cases parsed : Instruction.parse text number with
  | ok i =>
    rw [parsed] at failed
    cases failed
  | error e =>
    rw [parsed] at failed
    cases failed
    exact parse_ne_duplicate text number parsed

private theorem addressOf_ne_duplicate (symbols : AssemblySymbols) (value : String) (number : Nat) :
    addressOf symbols value number ≠ .error (.duplicateLabel label line first) := by
  intro failed
  unfold addressOf at failed
  dsimp only at failed
  split at failed
  · split at failed
    · split at failed <;> cases failed
    · cases failed
  · split at failed
    · obtain ⟨_, same⟩ := error_of_resolve failed
      cases same
    · cases failed

private theorem computeWord_ne_duplicate (dest comp jump : String) (number : Nat) :
    computeWord dest comp jump number ≠ .error (.duplicateLabel label line first) := by
  intro failed
  unfold computeWord at failed
  split at failed <;> cases failed

private theorem encode_ne_duplicate {more : AssemblySymbols} (words : Array String)
    (symbols : AssemblySymbols) (program : Program) :
    encode words symbols program ≠ (.error (.duplicateLabel label line first), more) := by
  intro failed
  induction words, symbols, program using encode.induct with
  | case1 words symbols => cases failed
  | case2 words symbols number name rest ih => exact ih failed
  | case3 words symbols number value rest e refused =>
    rw [encode, refused] at failed
    cases failed
    exact addressOf_ne_duplicate _ value number refused
  | case4 words symbols number value rest address next found ih =>
    rw [encode, found] at failed
    exact ih failed
  | case5 words symbols number dest comp jump rest e refused =>
    rw [encode, refused] at failed
    cases failed
    exact computeWord_ne_duplicate dest comp jump number refused
  | case6 words symbols number dest comp jump rest word found ih =>
    rw [encode, found] at failed
    exact ih failed

/-- Only the pass that binds labels reports one that is declared twice, and only when one is. -/
theorem not_nodup_of_duplicate
    (failed : (assemble .initial source).1 = .error (.duplicateLabel label line first)) :
    ¬ (Instruction.declaredIn source).Nodup := by
  rw [assemble] at failed
  split at failed
  · next refused =>
    cases failed
    exact absurd refused parseProgram_ne_duplicate
  · next program parsed =>
    rw [Instruction.declaredIn_of_read? (Instruction.read?_of_parseProgram parsed)]
    split at failed
    · next refused =>
      cases failed
      cases (unbound_of_initial refused).misplaced with
      | duplicate twice => exact twice
    · split at failed
      · next refused =>
        cases failed
        exact absurd refused (encode_ne_duplicate _ _ _)
      · cases failed

end Assembly

end NandTools
