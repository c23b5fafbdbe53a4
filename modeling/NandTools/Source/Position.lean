/-! Places in a source text. Offsets count UTF-8 bytes from zero; lines and columns count from
one, and a column is one character wide. -/
namespace NandTools.Source

structure Position where
  offset : Nat
  line : Nat
  column : Nat
deriving Repr, DecidableEq, Inhabited

namespace Position

def start : Position := ⟨0, 1, 1⟩

/-- The place after reading one character. -/
def advance (p : Position) (c : Char) : Position :=
  if c = '\n' then ⟨p.offset + 1, p.line + 1, 1⟩
  else ⟨p.offset + c.utf8Size, p.line, p.column + 1⟩

def advanceAll (p : Position) (text : List Char) : Position := text.foldl advance p

def display (p : Position) : String := s!"{p.line}:{p.column}"

theorem advanceAll_append (p : Position) (first second : List Char) :
    p.advanceAll (first ++ second) = (p.advanceAll first).advanceAll second :=
  List.foldl_append

theorem offset_le_advance (p : Position) (c : Char) : p.offset < (p.advance c).offset := by
  unfold advance
  split
  · exact Nat.lt_succ_self _
  · exact Nat.lt_add_of_pos_right c.utf8Size_pos

end Position

end NandTools.Source
