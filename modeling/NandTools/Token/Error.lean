import NandTools.Limits
import NandTools.Log.Code

/-! Reasons why a source text has no next token. -/
namespace NandTools

inductive LexicalError where
  | invalidCharacter (character : Char) (line column : Nat)
  | unterminatedString (line column : Nat)
  | invalidNumber (text : String) (line column : Nat)
  | identifierTooLong (length : Nat)
  | stringTooLarge (size : Nat)
  | unterminatedComment (line column : Nat)
  | commentTooLong (length : Nat)
  | tooManyTokens (count : Nat)
deriving Repr, DecidableEq

namespace LexicalError

def message : LexicalError → String
  | invalidCharacter character line column =>
    s!"Invalid character: '{character}' at line {line}, column {column}"
  | unterminatedString line column =>
    s!"Unterminated string constant starting at line {line}, column {column}"
  | invalidNumber text line column =>
    s!"Invalid integer constant '{text}' at line {line}, column {column} (max {Limits.integer})"
  | identifierTooLong length =>
    s!"Identifier too long: {length} characters (max {Limits.identifierBytes})"
  | stringTooLarge size => s!"String too large: {size} bytes (max {Limits.stringBytes})"
  | unterminatedComment line column =>
    s!"Unterminated block comment starting at line {line}, column {column}"
  | commentTooLong length =>
    s!"Comment too long: {length} characters (max {Limits.commentBytes})"
  | tooManyTokens count => s!"Too many tokens: {count} (max {Limits.tokens})"

def code : LexicalError → Code
  | invalidCharacter .. => .invalidCharacter
  | unterminatedString .. => .unterminatedString
  | invalidNumber .. => .invalidNumber
  | identifierTooLong _ => .identifierTooLong
  | stringTooLarge _ => .stringTooLarge
  | unterminatedComment .. => .unterminatedComment
  | commentTooLong _ => .commentTooLong
  | tooManyTokens _ => .tooManyTokens

/-- Line and column, where the error belongs to one place. -/
def place? : LexicalError → Option (Nat × Nat)
  | invalidCharacter _ line column
  | unterminatedString line column
  | invalidNumber _ line column
  | unterminatedComment line column => some (line, column)
  | _ => none

end LexicalError

end NandTools
