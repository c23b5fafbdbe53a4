import NandTools.Text.Blank
import NandTools.Text.Lines

/-! The lines of texts that are put together of lines. -/
namespace NandTools.Text

theorem rows_of_ended {pieces : List (List Char)} (single : ∀ row ∈ pieces, '\n' ∉ row) :
    rows (pieces.flatMap fun row => row ++ ['\n']) = pieces ++ [[]] := by
  induction pieces with
  | nil => rfl
  | cons row rest ih =>
    have unbroken : ∀ c ∈ row, (c == '\n') = false := by
      intro c member
      refine beq_eq_false_iff_ne.mpr fun same => ?_
      exact single row List.mem_cons_self (same ▸ member)
    have front := List.splitOnP_append_cons_of_forall_mem unbroken '\n' (beq_self_eq_true '\n')
      (rest.flatMap fun row => row ++ ['\n'])
    rw [List.flatMap_cons, List.append_assoc, List.singleton_append, rows, front]
    exact congrArg (row :: ·) (ih fun row member => single row (List.mem_cons_of_mem _ member))

/-- Lines that are each ended by a line feed are the lines of the text. -/
theorem lines_of_ended {pieces : List (List Char)} (single : ∀ row ∈ pieces, '\n' ∉ row) :
    lines (pieces.flatMap fun row => row ++ ['\n']) = pieces.map dropReturn := by
  simp [lines, rows_of_ended single]

/-- Whether a text ends where a line begins. -/
def Closed (text : List Char) : Prop := text = [] ∨ ∃ front, text = front ++ ['\n']

theorem Closed.append {front back : List Char} (before : Closed front) (after : Closed back) :
    Closed (front ++ back) := by
  rcases after with rfl | ⟨rest, rfl⟩
  · rwa [List.append_nil]
  · exact .inr ⟨front ++ rest, (List.append_assoc _ _ _).symm⟩

theorem closed_of_ended (pieces : List (List Char)) :
    Closed (pieces.flatMap fun row => row ++ ['\n']) := by
  induction pieces with
  | nil => exact .inl rfl
  | cons row rest ih => exact Closed.append (.inr ⟨row, rfl⟩) ih

theorem lines_append {front : List Char} (closed : Closed front) (back : List Char) :
    lines (front ++ back) = lines front ++ lines back := by
  rcases closed with rfl | ⟨front, rfl⟩
  · rfl
  · have ended (back : List Char) :
        lines (front ++ '\n' :: back) = (rows front).map dropReturn ++ lines back := by
      have rest : rows back ≠ [] := List.splitOnP_ne_nil _ back
      obtain ⟨last, found⟩ := Option.ne_none_iff_exists'.mp (mt List.getLast?_eq_none_iff.mp rest)
      have cut : rows (front ++ '\n' :: back) = rows front ++ rows back :=
        List.splitOnP_append_cons front back (beq_self_eq_true '\n')
      simp only [lines, cut, List.dropLast_append_of_ne_nil rest, List.getLast?_append, found,
        List.map_append, Option.some_or]
      cases last <;> simp
    rw [List.append_assoc, List.singleton_append, ended back, ended []]
    simp [lines, rows]

theorem dropReturn_eq_self {line : List Char} (plain : '\r' ∉ line) : dropReturn line = line := by
  rw [dropReturn, if_neg]
  exact fun last => plain (List.mem_of_getLast? last)

theorem isPrefix_dropReturn (line : List Char) : dropReturn line <+: line := by
  rw [dropReturn]
  split
  · exact List.dropLast_prefix line
  · exact List.prefix_refl line

theorem isPrefix_trimEnd (text : List Char) : trimEnd text <+: text := by
  rw [trimEnd, ← List.reverse_suffix, List.reverse_reverse]
  exact List.dropWhile_suffix _

private theorem trimEnd_eq_self {text : List Char} (solid : ∀ c ∈ text, isBlank c = false) :
    trimEnd text = text := by
  have kept : text.reverse.dropWhile isBlank = text.reverse := by
    cases reversed : text.reverse with
    | nil => rfl
    | cons c rest =>
      have member : c ∈ text := List.mem_reverse.mp (reversed ▸ List.mem_cons_self)
      exact List.dropWhile_cons_of_neg (by simp [solid c member])
  rw [trimEnd, kept, List.reverse_reverse]

theorem trim_eq_self {text : List Char} (solid : ∀ c ∈ text, isBlank c = false) :
    trim text = text := by
  have kept : text.dropWhile isBlank = text := by
    cases text with
    | nil => rfl
    | cons c rest => exact List.dropWhile_cons_of_neg (by simp [solid c List.mem_cons_self])
  rw [trim, kept, trimEnd_eq_self solid]

end NandTools.Text
