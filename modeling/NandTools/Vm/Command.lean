import NandTools.Limits

/-! Commands of the stack machine. -/
namespace NandTools

inductive Segment where
  | constant | local_ | argument | this_ | that | temp | pointer | static
deriving Repr, DecidableEq, Inhabited

namespace Segment

def text : Segment → String
  | constant => "constant"
  | local_ => "local"
  | argument => "argument"
  | this_ => "this"
  | that => "that"
  | temp => "temp"
  | pointer => "pointer"
  | static => "static"

def all : List Segment := [constant, local_, argument, this_, that, temp, pointer, static]

def ofText? (text : String) : Option Segment := all.find? (·.text == text)

/-- The register that holds the address of a segment's first cell. -/
def base? : Segment → Option String
  | local_ => some "LCL"
  | argument => some "ARG"
  | this_ => some "THIS"
  | that => some "THAT"
  | _ => none

/-- The number of cells of a segment of fixed size. -/
def size? : Segment → Option Nat
  | temp => some Limits.tempCells
  | pointer => some 2
  | _ => none

end Segment

inductive Operation where
  | add | sub | neg | eq | gt | lt | and | or | not
deriving Repr, DecidableEq, Inhabited

namespace Operation

def text : Operation → String
  | add => "add"
  | sub => "sub"
  | neg => "neg"
  | eq => "eq"
  | gt => "gt"
  | lt => "lt"
  | and => "and"
  | or => "or"
  | not => "not"

def all : List Operation := [add, sub, neg, eq, gt, lt, and, or, not]

def ofText? (text : String) : Option Operation := all.find? (·.text == text)

def isUnary : Operation → Bool
  | neg | not => true
  | _ => false

end Operation

inductive VmCommand where
  | arithmetic (operation : Operation)
  | push (segment : Segment) (index : Nat)
  | pop (segment : Segment) (index : Nat)
  | label (name : String)
  | goto (name : String)
  | ifGoto (name : String)
  | function (name : String) (locals : Nat)
  | call (name : String) (args : Nat)
  | return_
deriving Repr, DecidableEq, Inhabited

def VmCommand.text : VmCommand → String
  | arithmetic operation => operation.text
  | push segment index => s!"push {segment.text} {index}"
  | pop segment index => s!"pop {segment.text} {index}"
  | label name => s!"label {name}"
  | goto name => s!"goto {name}"
  | ifGoto name => s!"if-goto {name}"
  | function name locals => s!"function {name} {locals}"
  | call name args => s!"call {name} {args}"
  | return_ => "return"

end NandTools
