import NandTools.Assembly.Instruction
import NandTools.Proofs.Text.Words

/-! What a line shows: the text before its comment, without the blanks around it. -/
namespace NandTools

namespace Instruction

/-- What stands on a line before its comment, which begins at the first of all marks. -/
def Uncommented (line front : List Char) : Prop :=
  ∃ rest, line = front ++ rest ∧ (rest = [] ∨ ['/', '/'] <+: rest) ∧
    ∀ tail, tail <:+ line → ['/', '/'] <+: tail → tail <:+ rest

theorem Uncommented.unique {line front other : List Char} (first : Uncommented line front)
    (second : Uncommented line other) : front = other := by
  obtain ⟨rest, rfl, marked, most⟩ := first
  obtain ⟨rest', same, marked', most'⟩ := second
  have inside : rest <:+ rest' := by
    rcases marked with rfl | marked
    · exact List.nil_suffix
    · exact most' rest (List.suffix_append _ _) marked
  have inside' : rest' <:+ rest := by
    rcases marked' with rfl | marked'
    · exact List.nil_suffix
    · exact most rest' (same ▸ List.suffix_append _ _) marked'
  obtain rfl := inside.eq_of_length_le inside'.length_le
  exact List.append_cancel_right same

private theorem uncommented_append (seen line : List Char) :
    ∃ front, uncommented seen line = seen.reverse ++ front ∧ Uncommented line front := by
  induction seen, line using uncommented.induct with
  | case1 seen rest =>
    refine ⟨[], ?_, '/' :: '/' :: rest, rfl, .inr ⟨rest, rfl⟩, fun tail inside _ => inside⟩
    rw [uncommented, List.append_nil]
  | case2 seen c line other ih =>
    obtain ⟨front, cut, rest, rfl, marked, most⟩ := ih
    refine ⟨c :: front, ?_, rest, rfl, marked, ?_⟩
    · rw [uncommented, cut, List.reverse_cons, List.append_assoc, List.singleton_append]
      exact other
    · intro tail inside mark
      rcases List.suffix_cons_iff.mp inside with rfl | inside
      · obtain ⟨more, same⟩ := mark
        obtain ⟨slash, same⟩ := List.cons.inj same
        exact (other more slash.symm same.symm).elim
      · exact most tail inside mark
  | case3 seen =>
    refine ⟨[], ?_, [], rfl, .inl rfl, fun tail inside _ => inside⟩
    rw [uncommented, List.append_nil]

theorem uncommented_spec (line : List Char) : Uncommented line (uncommented [] line) := by
  obtain ⟨front, cut, spec⟩ := uncommented_append [] line
  rw [cut]
  exact spec

/-- The text that a line gives. -/
def Shows (line text : List Char) : Prop := ∃ front, Uncommented line front ∧ Text.Trims front text

theorem shows_iff {line text : List Char} : Shows line text ↔ significant line = text := by
  constructor
  · rintro ⟨front, uncommented, trims⟩
    rw [significant, (uncommented_spec line).unique uncommented]
    exact trims.trim_eq
  · rintro rfl
    exact ⟨_, uncommented_spec line, Text.trims_trim _⟩

end Instruction

end NandTools
