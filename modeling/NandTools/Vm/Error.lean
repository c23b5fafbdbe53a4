import NandTools.Log.Code

/-! Reasons why virtual machine code cannot be translated. -/
namespace NandTools

inductive VmError where
  | unknownCommand (command : String) (line : Nat)
  | malformedCommand (text reason : String) (line : Nat)
  | invalidSegment (segment : String) (line : Nat)
  | popToConstant (line : Nat)
  | segmentIndexOutOfRange (segment : String) (index size line : Nat)
  | invalidIndex (value : String) (line : Nat)
  | tooManyCommands (module : String) (limit : Nat)
  | noVmFiles (path : String)
deriving Repr, DecidableEq

namespace VmError

def message : VmError → String
  | unknownCommand command line => s!"Unknown VM command '{command}' at line {line}"
  | malformedCommand text reason line =>
    s!"Malformed VM command '{text}' at line {line}: {reason}"
  | invalidSegment segment line => s!"Invalid memory segment '{segment}' at line {line}"
  | popToConstant line => s!"Cannot pop into the constant segment at line {line}"
  | segmentIndexOutOfRange segment index size line =>
    s!"Index {index} is outside segment '{segment}' (size {size}) at line {line}"
  | invalidIndex value line => s!"Invalid index '{value}' at line {line}"
  | tooManyCommands module limit => s!"{module} has more than {limit} commands"
  | noVmFiles path => s!"No .vm files found in {path}"

def code : VmError → Code
  | unknownCommand .. => .unknownCommand
  | malformedCommand .. => .malformedCommand
  | invalidSegment .. => .invalidSegment
  | popToConstant _ => .popToConstant
  | segmentIndexOutOfRange .. => .segmentIndexOutOfRange
  | invalidIndex .. => .invalidIndex
  | tooManyCommands .. => .tooManyCommands
  | noVmFiles _ => .noVmFiles

/-- The source line, where the error belongs to one. -/
def line? : VmError → Option Nat
  | unknownCommand _ line | malformedCommand _ _ line | invalidSegment _ line | popToConstant line
  | segmentIndexOutOfRange _ _ _ line | invalidIndex _ line => some line
  | tooManyCommands .. | noVmFiles _ => none

end VmError

end NandTools
