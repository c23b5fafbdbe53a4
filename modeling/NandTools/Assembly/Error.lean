import NandTools.Limits
import NandTools.Log.Code

/-! Reasons why a program cannot be assembled. -/
namespace NandTools

inductive AssemblyError where
  | invalidComp (comp : String) (line : Nat)
  | invalidDest (dest : String) (line : Nat)
  | invalidJump (jump : String) (line : Nat)
  | constantOutOfRange (value : String) (line : Nat)
  | duplicateLabel (label : String) (line firstLine : Nat)
  | malformedLabel (text : String) (line : Nat)
  | invalidSymbol (symbol : String) (line : Nat)
  | romOverflow (limit : Nat)
  | ramExhausted (symbol : String) (address : Nat)
deriving Repr, DecidableEq

namespace AssemblyError

def message : AssemblyError → String
  | invalidComp comp line => s!"Invalid computation '{comp}' at line {line}"
  | invalidDest dest line => s!"Invalid destination '{dest}' at line {line}"
  | invalidJump jump line => s!"Invalid jump '{jump}' at line {line}"
  | constantOutOfRange value line =>
    s!"Constant {value} at line {line} exceeds {Limits.address}"
  | duplicateLabel label line firstLine =>
    s!"Label '{label}' at line {line} was already defined at line {firstLine}"
  | malformedLabel text line => s!"Malformed label declaration '{text}' at line {line}"
  | invalidSymbol symbol line => s!"Invalid symbol '{symbol}' at line {line}"
  | romOverflow limit => s!"Program exceeds ROM capacity of {limit} instructions"
  | ramExhausted symbol address =>
    s!"No RAM left for variable '{symbol}' (next address {address})"

def code : AssemblyError → Code
  | invalidComp .. => .invalidComp
  | invalidDest .. => .invalidDest
  | invalidJump .. => .invalidJump
  | constantOutOfRange .. => .constantOutOfRange
  | duplicateLabel .. => .duplicateLabel
  | malformedLabel .. => .malformedLabel
  | invalidSymbol .. => .invalidSymbol
  | romOverflow _ => .romOverflow
  | ramExhausted .. => .ramExhausted

/-- The source line, where the error belongs to one. -/
def line? : AssemblyError → Option Nat
  | invalidComp _ line | invalidDest _ line | invalidJump _ line | constantOutOfRange _ line
  | duplicateLabel _ line _ | malformedLabel _ line | invalidSymbol _ line => some line
  | romOverflow _ | ramExhausted .. => none

end AssemblyError

end NandTools
