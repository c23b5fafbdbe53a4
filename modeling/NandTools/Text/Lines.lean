/-! Lines of a text. A line feed ends a line, a carriage return directly before it belongs to
the line's end, and no line follows the last line feed. -/
namespace NandTools.Text

/-- Drop one carriage return from the end. -/
def dropReturn (line : List Char) : List Char :=
  if line.getLast? = some '\r' then line.dropLast else line

/-- Every line feed ends one piece, so a text with `n` of them has `n + 1` pieces. -/
def rows (text : List Char) : List (List Char) := text.splitOnP (· == '\n')

/-- All rows but the last are ended by a line feed; the last one counts only when it has text. -/
def lines (text : List Char) : List (List Char) :=
  let pieces := rows text
  let ended := pieces.dropLast.map dropReturn
  match pieces.getLast? with
  | some (c :: rest) => ended ++ [c :: rest]
  | _ => ended

/-- Give each line its number, counted from one. -/
def numberedLines (text : List Char) : List (Nat × List Char) :=
  (lines text).zipIdx 1 |>.map fun (line, number) => (number, line)

end NandTools.Text
