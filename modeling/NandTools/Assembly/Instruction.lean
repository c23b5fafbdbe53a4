import NandTools.Assembly.Error
import NandTools.Text.Blank
import NandTools.Text.Lines

/-! Lines of an assembly program. -/
namespace NandTools

/-- An instruction whose symbols and mnemonics are not yet looked up. -/
inductive Instruction where
  | label (name : String)
  | address (value : String)
  | compute (dest comp jump : String)
deriving Repr, DecidableEq, Inhabited

namespace Instruction

def isLabel : Instruction → Bool
  | label _ => true
  | _ => false

def isSymbolChar (c : Char) : Bool :=
  c.isAlphanum || c == '_' || c == '.' || c == '$' || c == ':'

/-- Symbols are made of letters, digits, underscores, points, dollar signs and colons and do not
begin with a digit. -/
def isSymbol (text : List Char) : Bool :=
  match text with
  | [] => false
  | first :: _ => !first.isDigit && text.all isSymbolChar

/-- What precedes a comment, before the characters in `seen`, last one first. -/
def uncommented (seen : List Char) : List Char → List Char
  | '/' :: '/' :: _ => seen.reverse
  | c :: rest => uncommented (c :: seen) rest
  | [] => seen.reverse

/-- What precedes a comment on a line, without blanks around it. -/
def significant (line : List Char) : List Char := Text.trim (uncommented [] line)

/-- Cut at the first `mark`, which is dropped. -/
def splitAt? (mark : Char) (text : List Char) : Option (List Char × List Char) :=
  match text.dropWhile (· != mark) with
  | _ :: rest => some (text.takeWhile (· != mark), rest)
  | [] => none

def parseCompute (text : List Char) : Instruction :=
  let (assignment, jump) := (splitAt? ';' text).getD (text, [])
  let (dest, comp) := (splitAt? '=' assignment).getD ([], assignment)
  .compute (.ofList dest) (.ofList comp) (.ofList jump)

/-- Read a line without comment and blanks. -/
def parse (text : List Char) (line : Nat) : Except AssemblyError Instruction :=
  match text with
  | '(' :: rest =>
    let name := rest.dropLast
    if rest.getLast? = some ')' && isSymbol name then .ok (.label (.ofList name))
    else .error (.malformedLabel (.ofList text) line)
  | '@' :: value =>
    if value.isEmpty then .error (.invalidSymbol (.ofList text) line)
    else .ok (.address (.ofList value))
  | _ => .ok (parseCompute text)

def text : Instruction → String
  | label name => s!"({name})"
  | address value => s!"@{value}"
  | compute dest comp jump =>
    (if dest = "" then "" else dest ++ "=") ++ comp ++ (if jump = "" then "" else ";" ++ jump)

/-- The instructions of a program with their line numbers. -/
def parseProgram (source : List Char) : Except AssemblyError (List (Nat × Instruction)) :=
  let lines := (Text.numberedLines source).map fun (number, line) => (number, significant line)
  (lines.filter fun (_, text) => !text.isEmpty).mapM fun (number, text) =>
    (parse text number).map fun instruction => (number, instruction)

end Instruction

end NandTools
