import NandTools.Source.Span
import NandTools.Text.Lines

/-! Source lines quoted under an error message, with carets below the place it speaks of. -/
namespace NandTools.Source

/-- A source text cut into rows at its line feeds. -/
structure LineIndex where
  rows : Array (List Char)
deriving Repr

namespace LineIndex

def ofText (text : List Char) : LineIndex := ⟨(Text.rows text).toArray⟩

/-- The row with this number, counted from one, less the carriage returns at its end. -/
def line? (index : LineIndex) (number : Nat) : Option (List Char) :=
  if number = 0 then none
  else index.rows[number - 1]?.map fun row => (row.reverse.dropWhile (· == '\r')).reverse

/-- How many carets stand under `line`: the width of a span within it, else the rest of the
line from the span's start, and never none. -/
def caretCount (span : Span) (line : List Char) : Nat :=
  max 1 <|
    if span.start.line = span.stop.line then span.stop.column - span.start.column
    else line.length - (span.start.column - 1)

private def blanks (count : Nat) : String := "".pushn ' ' count

def describe (index : LineIndex) (span : Span) (message : String) : String :=
  let heading := s!"Error: {message}\n  --> {span.start.display}\n"
  match index.line? span.start.line with
  | none => heading
  | some line =>
    let number := toString span.start.line
    let margin := blanks number.length
    let carets := "".pushn '^' (caretCount span line)
    heading ++ s!"   {margin} |\n   {number} | {String.ofList line}\n" ++
      s!"   {margin} | {blanks (span.start.column - 1)}{carets}\n"

end LineIndex

end NandTools.Source
