import Mathlib.Data.List.Induction
import NandTools.Proofs.Source.Slice
import NandTools.Proofs.Text.Lines

/-! The rows of a text, and the places in it: lines count the line feeds before a place, columns the
characters after the last of them. -/
namespace NandTools

namespace Text

theorem length_rows (text : List Char) : (rows text).length = text.count '\n' + 1 := by
  rw [rows]
  induction text with
  | nil => rfl
  | cons c text ih =>
    rw [List.splitOnP_cons_eq_if_modifyHead, List.count_cons]
    split <;> simp [ih]

/-- What a text has after its last line feed. -/
def lastRow (text : List Char) : List Char := (text.reverse.takeWhile (· != '\n')).reverse

theorem lastRow_concat (text : List Char) (c : Char) :
    lastRow (text ++ [c]) = if c = '\n' then [] else lastRow text ++ [c] := by
  by_cases feed : c = '\n' <;> simp [lastRow, feed]

theorem lastRow_append {text more : List Char} (single : '\n' ∉ more) :
    lastRow (text ++ more) = lastRow text ++ more := by
  induction more using List.reverseRecOn with
  | nil => simp
  | append_singleton more c ih =>
    rw [List.mem_append, not_or, List.mem_singleton] at single
    rw [← List.append_assoc, lastRow_concat, if_neg (Ne.symm single.2), ih single.1,
      List.append_assoc]

theorem not_mem_lastRow (text : List Char) : '\n' ∉ lastRow text := by
  intro feed
  have inside := List.all_eq_true.mp List.all_takeWhile _ (List.mem_reverse.mp feed)
  exact absurd inside (by decide)

/-- A text is its last row and what ends where that row begins. -/
theorem exists_lastRow (text : List Char) :
    ∃ before, text = before ++ lastRow text ∧ Closed before := by
  induction text using List.reverseRecOn with
  | nil => exact ⟨[], rfl, .inl rfl⟩
  | append_singleton text c ih =>
    obtain ⟨before, whole, closed⟩ := ih
    rw [lastRow_concat]
    by_cases feed : c = '\n'
    · rw [if_pos feed, feed]
      exact ⟨_, (List.append_nil _).symm, .inr ⟨text, rfl⟩⟩
    · rw [if_neg feed]
      exact ⟨before, by rw [← List.append_assoc, ← whole], closed⟩

/-- A row is found by the number of line feeds before it. -/
theorem rows_of_row {before row after : List Char} (closed : Closed before) (single : '\n' ∉ row)
    (ends : ∀ c ∈ after.head?, c = '\n') :
    (rows (before ++ row ++ after))[before.count '\n']? = some row := by
  have unbroken : ∀ c ∈ row, (c == '\n') = false := fun c member =>
    beq_eq_false_iff_ne.mpr fun feed => single (feed ▸ member)
  have here : (rows (row ++ after))[0]? = some row := by
    cases after with
    | nil => rw [List.append_nil, rows, List.splitOnP_eq_singleton unbroken]; rfl
    | cons c after =>
      obtain rfl : c = '\n' := ends c rfl
      rw [rows, List.splitOnP_append_cons_of_forall_mem unbroken '\n' rfl]
      rfl
  rcases closed with rfl | ⟨front, rfl⟩
  · exact here
  · have cut : rows (front ++ ['\n'] ++ row ++ after) = rows front ++ rows (row ++ after) := by
      rw [List.append_assoc, List.append_assoc]
      exact List.splitOnP_append_cons front (row ++ after) (beq_self_eq_true '\n')
    have feeds : (front ++ ['\n']).count '\n' = (rows front).length := by
      rw [length_rows, List.count_append]
      rfl
    rw [cut, feeds, List.getElem?_append_right (Nat.le_refl _), Nat.sub_self, here]

end Text

namespace Source.Position

/-- The place after a text that was read from the start. -/
theorem place_advanceAll (text : List Char) :
    (start.advanceAll text).line = text.count '\n' + 1 ∧
      (start.advanceAll text).column = (Text.lastRow text).length + 1 := by
  induction text using List.reverseRecOn with
  | nil => exact ⟨rfl, rfl⟩
  | append_singleton text c ih =>
    obtain ⟨line, column⟩ := ih
    have last : start.advanceAll (text ++ [c]) = (start.advanceAll text).advance c :=
      advanceAll_append start text [c]
    rw [last, advance, Text.lastRow_concat, List.count_append, List.count_singleton]
    by_cases feed : c = '\n'
    · rw [if_pos feed, if_pos feed]
      simp [line, feed]
    · rw [if_neg feed, if_neg feed]
      simp [line, column, feed]

end Source.Position

end NandTools
