import Mathlib.Data.String.Basic
import NandTools.Source.Span

/-! The bytes between two positions of a text are those of the characters that were read on the way
from one to the other. -/
namespace NandTools.Source

namespace Position

theorem offset_advance (p : Position) (c : Char) : (p.advance c).offset = p.offset + c.utf8Size := by
  rw [advance]
  split
  · next feed =>
    subst feed
    rfl
  · rfl

theorem offset_advanceAll (p : Position) (text : List Char) :
    (p.advanceAll text).offset = p.offset + String.utf8Len text := by
  induction text generalizing p with
  | nil => rfl
  | cons c text ih =>
    have first : p.advanceAll (c :: text) = (p.advance c).advanceAll text := rfl
    rw [first, ih, offset_advance, String.utf8Len_cons]
    omega

end Position

/-- The stretch of a text from what stands before it to its end. -/
def Span.after (before text : List Char) : Span :=
  ⟨Position.start.advanceAll before, Position.start.advanceAll (before ++ text)⟩

namespace Span

variable (before text : List Char)

theorem start_after : (after before text).start.offset = String.utf8Len before := by
  rw [after, Position.offset_advanceAll]
  exact Nat.zero_add _

theorem stop_after : (after before text).stop.offset = String.utf8Len (before ++ text) := by
  rw [after, Position.offset_advanceAll]
  exact Nat.zero_add _

theorem slice_after (rest : List Char) :
    (after before text).slice (.ofList (before ++ text ++ rest)) = .ofList text := by
  rw [slice, start_after, stop_after, String.utf8Len_append]
  exact String.extract_of_valid before text rest

end Span

end NandTools.Source
