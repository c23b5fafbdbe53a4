import NandTools.Assembly.Error
import Std.Data.HashMap

/-! The symbols of an assembly program and the addresses they stand for. -/
namespace NandTools

/-- What a symbol was bound by; a label also knows the line that declares it. -/
inductive Binding where
  | predefined (address : Nat)
  | label (address line : Nat)
  | allocated (address : Nat)
deriving Repr, DecidableEq

def Binding.address : Binding → Nat
  | predefined address | label address _ | allocated address => address

structure AssemblySymbols where
  bindings : Std.HashMap String Binding
  labelCount : Nat
  variableCount : Nat

namespace AssemblySymbols

def predefined : List (String × Nat) :=
  [("SP", 0), ("LCL", 1), ("ARG", 2), ("THIS", 3), ("THAT", 4)] ++
    (List.range 16).map (fun n => (s!"R{n}", n)) ++
    [("SCREEN", Limits.screen), ("KBD", Limits.keyboard)]

def initial : AssemblySymbols where
  bindings := .ofList (predefined.map fun (name, address) => (name, .predefined address))
  labelCount := 0
  variableCount := 0

def get? (symbols : AssemblySymbols) (name : String) : Option Nat :=
  symbols.bindings[name]?.map Binding.address

/-- Bind a label to the address of the next instruction. -/
def defineLabel (symbols : AssemblySymbols) (name : String) (address line : Nat) :
    Except AssemblyError AssemblySymbols :=
  match symbols.bindings[name]? with
  | some (.label _ firstLine) => .error (.duplicateLabel name line firstLine)
  | some (.predefined _) => .error (.malformedLabel s!"({name})" line)
  | _ =>
    .ok
      { symbols with
        bindings := symbols.bindings.insert name (.label address line)
        labelCount := symbols.labelCount + 1 }

/-- The address of a symbol. One that is not bound becomes the next variable, below the screen. -/
def resolve (symbols : AssemblySymbols) (name : String) :
    Except AssemblyError (Nat × AssemblySymbols) :=
  match symbols.bindings[name]? with
  | some binding => .ok (binding.address, symbols)
  | none =>
    let address := Limits.variableBase + symbols.variableCount
    if address ≥ Limits.screen then .error (.ramExhausted name address)
    else
      .ok (address,
        { symbols with
          bindings := symbols.bindings.insert name (.allocated address)
          variableCount := symbols.variableCount + 1 })

end AssemblySymbols

end NandTools
