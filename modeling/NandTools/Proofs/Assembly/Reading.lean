import NandTools.Proofs.Assembly.Encoding
import NandTools.Proofs.Outcome

/-! Programs that are put together of blocks of lines: each block is read by itself. -/
namespace NandTools.Instruction

/-- The instructions that a text is read as. -/
def read? (text : List Char) : Option (List Instruction) :=
  (parseProgram text).toOption.map fun program => program.map Prod.snd

/-- Only errors depend on the line. -/
private theorem parse_toOption (text : List Char) (line : Nat) :
    (parse text line).toOption = (parse text 0).toOption := by
  unfold parse
  split
  · dsimp only
    split <;> rfl
  · split <;> rfl
  · rfl

theorem read?_eq (text : List Char) : read? text =
    (((Text.lines text).map significant).filter fun line => !line.isEmpty).mapM
      fun line => (parse line 0).toOption := by
  rw [read?, parseProgram, Text.numberedLines]
  generalize 1 = number
  induction Text.lines text generalizing number with
  | nil => rfl
  | cons line lines ih =>
    simp only [List.map_cons, List.zipIdx_cons, List.filter_cons]
    split
    · rw [List.mapM_cons, List.mapM_cons, ← ih (number + 1), ← parse_toOption _ number]
      dsimp only
      cases parse (significant line) number with
      | error e => rfl
      | ok i =>
        cases List.mapM (m := Except AssemblyError) _ (List.filter _ _) <;> rfl
    · exact ih (number + 1)

theorem read?_of_parseProgram {text : List Char} {program : List (Nat × Instruction)}
    (parsed : parseProgram text = .ok program) : read? text = some (program.map Prod.snd) := by
  rw [read?, parsed]
  rfl

theorem parseProgram_of_read? {text : List Char} {code : List Instruction}
    (read : read? text = some code) :
    ∃ program, parseProgram text = .ok program ∧ program.map Prod.snd = code := by
  obtain ⟨program, parsed, same⟩ := Option.map_eq_some_iff.mp read
  exact ⟨program, Except.ok_of_toOption parsed, same⟩

theorem read?_append {front : List Char} (closed : Text.Closed front) (back : List Char) :
    read? (front ++ back) = do
      let first ← read? front
      let second ← read? back
      return first ++ second := by
  simp only [read?_eq, Text.lines_append closed, List.map_append, List.filter_append,
    List.mapM_append]

theorem encoded_append (front back : List Instruction) :
    encoded (front ++ back) = encoded front ++ encoded back := List.filter_append _ _

theorem size_append (front back : List Instruction) : size (front ++ back) = size front + size back := by
  rw [size, encoded_append, List.length_append]
  rfl

/-- A block of lines stands in a source, with `first` instructions before it and `last` before its
end. -/
def Stands (block source : List Char) (first last : Nat) : Prop :=
  ∃ before after, source = before ++ (block ++ after) ∧ Text.Closed before ∧
    (read? before).map size = some first ∧ (read? (before ++ block)).map size = some last

/-- The instructions of a block stand where the block does. -/
theorem Stands.split {block source : List Char} {first last : Nat} {part code : List Instruction}
    (stands : Stands block source first last) (closed : Text.Closed block)
    (block_read : read? block = some part) (source_read : read? source = some code) :
    ∃ front back, code = front ++ (part ++ back) ∧ size front = first ∧
      last = first + size part := by
  obtain ⟨before, after, rfl, aligned, counted, ended⟩ := stands
  obtain ⟨front, front_read, rfl⟩ := Option.map_eq_some_iff.mp counted
  rw [read?_append aligned, front_read, block_read] at ended
  rw [read?_append aligned, read?_append closed, front_read, block_read] at source_read
  cases after_read : read? after with
  | none =>
    rw [after_read] at source_read
    cases source_read
  | some back =>
    rw [after_read] at source_read
    refine ⟨front, back, (Option.some.inj source_read).symm, rfl, ?_⟩
    rw [← size_append]
    exact (Option.some.inj ended).symm

/-- Lines that are written are read as the instructions among them. -/
theorem read?_textOf {lines : List AssemblyLine}
    (printable : ∀ line ∈ lines, line.isPrintable = true) :
    read? (CodeWriter.textOf lines).toList = some (lines.filterMap AssemblyLine.instruction?) := by
  obtain ⟨program, parsed, code⟩ := parseProgram_textOf printable
  rw [read?_of_parseProgram parsed, code]

theorem closed_textOf (lines : List AssemblyLine) :
    Text.Closed (CodeWriter.textOf lines).toList := by
  rw [CodeWriter.toList_textOf]
  exact Text.closed_of_ended _

/-- Some of the lines that are written stand among them. -/
theorem stands_textOf (front part back : List AssemblyLine)
    (printable : ∀ line ∈ front ++ part, line.isPrintable = true) :
    Stands (CodeWriter.textOf part).toList (CodeWriter.textOf (front ++ (part ++ back))).toList
      (size (front.filterMap AssemblyLine.instruction?))
      (size ((front ++ part).filterMap AssemblyLine.instruction?)) := by
  refine ⟨(CodeWriter.textOf front).toList, (CodeWriter.textOf back).toList, ?_,
    closed_textOf front, ?_, ?_⟩
  · rw [CodeWriter.textOf_append, CodeWriter.textOf_append, String.toList_append,
      String.toList_append]
  · rw [read?_textOf fun line member => printable line (List.mem_append_left part member)]
    rfl
  · rw [← String.toList_append, ← CodeWriter.textOf_append, read?_textOf printable]
    rfl

end NandTools.Instruction
