import NandTools.Assembly.Instruction
import NandTools.Vm.Command
import NandTools.Vm.Error

/-! Assembly code for the commands of the stack machine. -/
namespace NandTools

inductive AssemblyLine where
  | comment (text : String)
  | instruction (instruction : Instruction)
deriving Repr, DecidableEq

def AssemblyLine.text : AssemblyLine → String
  | comment text => s!"// {text}"
  | instruction i => i.text

/-- Code that is written in order, its lines kept last one first. Labels are numbered through all
modules; statics are named after the module, labels after the function they stand in. -/
structure CodeWriter where
  annotate : Bool
  module : String := ""
  function? : Option String := none
  comparisons : Nat := 0
  calls : Nat := 0
  written : List AssemblyLine := []
deriving Repr

namespace CodeWriter

open Instruction (label address)

def set (dest comp : String) : Instruction := .compute dest comp ""

def goto (comp jump : String) : Instruction := .compute "" comp jump

def popToD : List Instruction := [address "SP", set "AM" "M-1", set "D" "M"]

def pushD : List Instruction :=
  [address "SP", set "A" "M", set "M" "D", address "SP", set "M" "M+1"]

/-- Where a popped value goes is kept here until it is popped. -/
def addressRegister : String := "R13"

def frameRegister : String := "R14"

def returnRegister : String := "R15"

def onTop (comp : String) : List Instruction :=
  [address "SP", set "A" "M-1", set "M" comp]

def combine (comp : String) : List Instruction := popToD ++ [set "A" "A-1", set "M" comp]

/-- Leave minus one for true and zero for false. The labels carry `name` and `number`. -/
def compare (name jump : String) (number : Nat) : List Instruction :=
  let yes := s!"IS_{name}_{number}"
  let done := s!"END_{name}_{number}"
  popToD ++
    [set "A" "A-1", set "D" "M-D", address yes, goto "D" jump,
      address "SP", set "A" "M-1", set "M" "0", address done, goto "0" "JMP",
      label yes, address "SP", set "A" "M-1", set "M" "-1", label done]

def operationCode (number : Nat) : Operation → List Instruction
  | .neg => onTop "-M"
  | .not => onTop "!M"
  | .add => combine "M+D"
  | .sub => combine "M-D"
  | .and => combine "M&D"
  | .or => combine "M|D"
  | .eq => compare "EQ" "JEQ" number
  | .gt => compare "GT" "JGT" number
  | .lt => compare "LT" "JLT" number

/-- The symbol or number of a cell that needs no address computed. -/
def directAddress (module : String) (segment : Segment) (index : Nat) : String :=
  match segment with
  | .temp => toString (Limits.tempBase + index)
  | .pointer => if index = 0 then "THIS" else "THAT"
  | _ => s!"{module}.{index}"

def pushCode (module : String) (segment : Segment) (index : Nat) : List Instruction :=
  (match segment, segment.base? with
    | .constant, _ => [address (toString index), set "D" "A"]
    | _, some base =>
      if index = 0 then [address base, set "A" "M", set "D" "M"]
      else [address (toString index), set "D" "A", address base, set "A" "M+D", set "D" "M"]
    | segment, none => [address (directAddress module segment index), set "D" "M"]) ++ pushD

def popCode (module : String) (segment : Segment) (index : Nat) : List Instruction :=
  match segment.base? with
  | some base =>
    (if index = 0 then [address base, set "D" "M"]
      else [address (toString index), set "D" "A", address base, set "D" "M+D"]) ++
    [address addressRegister, set "M" "D"] ++ popToD ++
    [address addressRegister, set "A" "M", set "M" "D"]
  | none => popToD ++ [address (directAddress module segment index), set "M" "D"]

def functionCode (name : String) (locals : Nat) : List Instruction :=
  label name :: (List.replicate locals
    [address "SP", set "A" "M", set "M" "0", address "SP", set "M" "M+1"]).flatten

/-- Save the caller's registers below a new frame and jump. -/
def callCode (returnLabel name : String) (args : Nat) : List Instruction :=
  [address returnLabel, set "D" "A"] ++ pushD ++
    ["LCL", "ARG", "THIS", "THAT"].flatMap (fun register =>
      [address register, set "D" "M"] ++ pushD) ++
    [address "SP", set "D" "M", address (toString (args + 5)), set "D" "D-A",
      address "ARG", set "M" "D", address "SP", set "D" "M", address "LCL", set "M" "D",
      address name, goto "0" "JMP", label returnLabel]

/-- Put the result where the arguments began, restore the caller's registers and jump back. -/
def returnCode : List Instruction :=
  [address "LCL", set "D" "M", address frameRegister, set "M" "D",
    address "5", set "A" "D-A", set "D" "M", address returnRegister, set "M" "D"] ++
  popToD ++
  [address "ARG", set "A" "M", set "M" "D", address "ARG", set "D" "M+1",
    address "SP", set "M" "D"] ++
  ["THAT", "THIS", "ARG", "LCL"].flatMap (fun register =>
    [address frameRegister, set "AM" "M-1", set "D" "M", address register, set "M" "D"]) ++
  [address returnRegister, set "A" "M", goto "0" "JMP"]

/-- Labels are local to the function they stand in. -/
def localLabel (w : CodeWriter) (name : String) : String :=
  match w.function? with
  | some function => s!"{function}${name}"
  | none => name

/-- Outside of any function, calls belong to the bootstrap code. -/
def returnLabel (w : CodeWriter) : String :=
  let caller := w.function?.getD "bootstrap"
  s!"{caller}$ret.{w.calls}"

/-- The code of one command. -/
def code (w : CodeWriter) : VmCommand → List Instruction
  | .arithmetic operation => operationCode w.comparisons operation
  | .push segment index => pushCode w.module segment index
  | .pop segment index => popCode w.module segment index
  | .label name => [label (w.localLabel name)]
  | .goto name => [address (w.localLabel name), goto "0" "JMP"]
  | .ifGoto name => popToD ++ [address (w.localLabel name), goto "D" "JNE"]
  | .function name locals => functionCode name locals
  | .call name args => callCode w.returnLabel name args
  | .return_ => returnCode

/-- Count the labels that a command has used up, and note the function it begins. -/
def pass (w : CodeWriter) : VmCommand → CodeWriter
  | .arithmetic .eq | .arithmetic .gt | .arithmetic .lt =>
    { w with comparisons := w.comparisons + 1 }
  | .function name _ => { w with function? := some name }
  | .call .. => { w with calls := w.calls + 1 }
  | _ => w

def emit (w : CodeWriter) (lines : List AssemblyLine) : CodeWriter :=
  { w with written := lines.reverseAux w.written }

def comment (w : CodeWriter) (text : String) : CodeWriter :=
  if w.annotate then w.emit [.comment text] else w

/-- Begin a module. -/
def setModule (w : CodeWriter) (module : String) : CodeWriter :=
  { w with module, function? := none }

/-- Write one command. Nothing can be popped into a constant; only the comment is written then. -/
def write (w : CodeWriter) (command : VmCommand) (line : Nat) : Except VmError Unit × CodeWriter :=
  let w := w.comment command.text
  match command with
  | .pop .constant _ => (.error (.popToConstant line), w)
  | _ => (.ok (), (w.emit ((w.code command).map .instruction)).pass command)

/-- Set up the stack, then call the program's entry. -/
def writeBootstrap (w : CodeWriter) : CodeWriter :=
  let w := w.comment "bootstrap"
  let entry := VmCommand.call "Sys.init" 0
  let setup := [address (toString Limits.stackBase), set "D" "A", address "SP", set "M" "D"]
  (w.emit ((setup ++ w.code entry).map .instruction)).pass entry

/-- The lines in order, each ended by a line feed. -/
def textOf (lines : List AssemblyLine) : String :=
  lines.foldl (fun out line => out ++ line.text ++ "\n") ""

def text (w : CodeWriter) : String := textOf w.written.reverse

end CodeWriter

end NandTools
