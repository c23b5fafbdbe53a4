import NandTools.Assembly.Instruction
import NandTools.Text.Numeral
import NandTools.Vm.Command
import NandTools.Vm.Error

/-! Lines of virtual machine code: at most one command each, written as words. -/
namespace NandTools.VmCommand

/-- Names are made as symbols are. -/
def isName (text : List Char) : Bool :=
  !(text.head?.map Char.isDigit).getD false && text.all Instruction.isSymbolChar

def parseIndex (text : List Char) (line : Nat) : Except VmError Nat :=
  match Text.readSigned Limits.address text with
  | some index => .ok index
  | none => .error (.invalidIndex (.ofList text) line)

/-- A line's text without its comment, its number, and the words after the first. -/
structure Words where
  text : List Char
  line : Nat
  operands : List (List Char)

namespace Words

def malformed (words : Words) (reason : String) : VmError :=
  .malformedCommand (.ofList words.text) reason words.line

def wrongCount (words : Words) (expected : Nat) : VmError :=
  words.malformed s!"expected {expected} operand(s), found {words.operands.length}"

/-- The segment and index that a command names. -/
def cell (words : Words) : Except VmError (Segment × Nat) :=
  match words.operands with
  | [name, index] =>
    match Segment.ofText? (.ofList name) with
    | none => .error (.invalidSegment (.ofList name) words.line)
    | some segment =>
      match parseIndex index words.line with
      | .error e => .error e
      | .ok index =>
        match segment.size? with
        | some size =>
          if index ≥ size then
            .error (.segmentIndexOutOfRange segment.text index size words.line)
          else .ok (segment, index)
        | none => .ok (segment, index)
  | _ => .error (words.wrongCount 2)

def name (words : Words) : Except VmError String :=
  match words.operands with
  | [name] =>
    if isName name then .ok (.ofList name) else .error (words.malformed "invalid label name")
  | _ => .error (words.wrongCount 1)

/-- The name and the number that a command gives. -/
def nameAndCount (words : Words) : Except VmError (String × Nat) :=
  match words.operands with
  | [name, count] =>
    if isName name then (parseIndex count words.line).map fun count => (.ofList name, count)
    else .error (words.malformed "invalid function name")
  | _ => .error (words.wrongCount 2)

def bare (words : Words) (command : VmCommand) : Except VmError VmCommand :=
  if words.operands.isEmpty then .ok command else .error (words.wrongCount 0)

def command (keyword : String) (words : Words) : Except VmError VmCommand :=
  match keyword with
  | "push" => words.cell.map fun (segment, index) => push segment index
  | "pop" =>
    match words.cell with
    | .error e => .error e
    | .ok (.constant, _) => .error (.popToConstant words.line)
    | .ok (segment, index) => .ok (pop segment index)
  | "label" => words.name.map label
  | "goto" => words.name.map goto
  | "if-goto" => words.name.map ifGoto
  | "function" => words.nameAndCount.map fun (name, count) => function name count
  | "call" => words.nameAndCount.map fun (name, count) => call name count
  | "return" => words.bare return_
  | other =>
    match Operation.ofText? other with
    | some operation => words.bare (arithmetic operation)
    | none => .error (.unknownCommand other words.line)

end Words

/-- The command on a line, if there is one. -/
def parseLine (raw : List Char) (line : Nat) : Except VmError (Option VmCommand) :=
  let text := Instruction.significant raw
  match Text.words text with
  | [] => .ok none
  | keyword :: operands => (Words.command (.ofList keyword) ⟨text, line, operands⟩).map some

/-- The commands of a text with their line numbers. -/
def parseProgram (source : List Char) : Except VmError (List (Nat × VmCommand)) :=
  (Text.numberedLines source).filterMapM fun (number, raw) => do
    return (← parseLine raw number).map fun command => (number, command)

end NandTools.VmCommand
