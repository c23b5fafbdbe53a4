import NandTools.Source.Position

/-! Stretches of a source text, from an inclusive start to an exclusive end, and values that
carry one. -/
namespace NandTools.Source

structure Span where
  start : Position
  stop : Position
deriving Repr, DecidableEq, Inhabited

namespace Span

/-- One character wide, one byte long. -/
def single (p : Position) : Span := ⟨p, ⟨p.offset + 1, p.line, p.column + 1⟩⟩

/-- The span of tokens that were read from no text. -/
def dummy : Span := ⟨Position.start, Position.start⟩

/-- The earlier start and the later end, by offset. Of two equal offsets the second span's
place is kept. -/
def merge (a b : Span) : Span where
  start := if a.start.offset < b.start.offset then a.start else b.start
  stop := if b.stop.offset < a.stop.offset then a.stop else b.stop

def length (s : Span) : Nat := s.stop.offset - s.start.offset

def isEmpty (s : Span) : Bool := s.start.offset == s.stop.offset

/-- The bytes of `text` that the span covers. -/
def slice (s : Span) (text : String) : String :=
  String.Pos.Raw.extract text ⟨s.start.offset⟩ ⟨s.stop.offset⟩

/-- A span within one line names the line once. -/
def display (s : Span) : String :=
  if s.start.line = s.stop.line then s!"{s.start.line}:{s.start.column}-{s.stop.column}"
  else s!"{s.start.display}-{s.stop.display}"

end Span

/-- A value and the stretch of text it was read from. -/
structure Located (α : Type) where
  value : α
  span : Span
deriving Repr, DecidableEq

def Located.map {α β : Type} (f : α → β) (x : Located α) : Located β := ⟨f x.value, x.span⟩

end NandTools.Source
