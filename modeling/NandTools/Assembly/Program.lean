import NandTools.Assembly.Instruction
import NandTools.Assembly.Mnemonic
import NandTools.Assembly.Symbols
import NandTools.Log.Event
import NandTools.Text.Binary
import NandTools.Text.Numeral

/-! Programs assembled in two passes: the first binds the labels, the second writes one word for
every other instruction. -/
namespace NandTools

structure AssemblyStats where
  instructions : Nat
  labelCount : Nat
  variableCount : Nat
deriving Repr, DecidableEq

structure Assembly where
  words : Array String
  stats : AssemblyStats
deriving Repr

namespace Assembly

abbrev Program := List (Nat × Instruction)

/-- One word a line. -/
def text (assembly : Assembly) : String :=
  assembly.words.foldl (fun out word => out ++ word ++ "\n") ""

/-- Bind every label to the number of instructions before it, of which `address` are passed. -/
def bindLabels (address : Nat) (symbols : AssemblySymbols) :
    Program → Except AssemblyError Unit × AssemblySymbols
  | [] => (.ok (), symbols)
  | (line, .label name) :: rest =>
    if address > Limits.romWords then (.error (.romOverflow Limits.romWords), symbols)
    else
      match symbols.defineLabel name address line with
      | .error e => (.error e, symbols)
      | .ok symbols => bindLabels address symbols rest
  | _ :: rest =>
    if address + 1 > Limits.romWords then (.error (.romOverflow Limits.romWords), symbols)
    else bindLabels (address + 1) symbols rest

/-- The address that `value` means: a number up to the limit, or a symbol. -/
def addressOf (symbols : AssemblySymbols) (value : String) (line : Nat) :
    Except AssemblyError (Nat × AssemblySymbols) :=
  let letters := value.toList
  if (letters.head?.map Char.isDigit).getD false then
    if letters.all Char.isDigit then
      match Text.readNat Limits.address letters with
      | some address => .ok (address, symbols)
      | none => .error (.constantOutOfRange value line)
    else .error (.invalidSymbol value line)
  else if Instruction.isSymbol letters then symbols.resolve value
  else .error (.invalidSymbol value line)

def addressWord (address : Nat) : String := "0" ++ Text.binary 15 address

def computeWord (dest comp jump : String) (line : Nat) : Except AssemblyError String :=
  match Mnemonic.compBits? comp, Mnemonic.destBits? dest, Mnemonic.jumpBits? jump with
  | none, _, _ => .error (.invalidComp comp line)
  | some _, none, _ => .error (.invalidDest dest line)
  | some _, some _, none => .error (.invalidJump jump line)
  | some compBits, some destBits, some jumpBits => .ok ("111" ++ compBits ++ destBits ++ jumpBits)

/-- The words of the instructions after those already in `words`. -/
def encode (words : Array String) (symbols : AssemblySymbols) :
    Program → Except AssemblyError (Array String) × AssemblySymbols
  | [] => (.ok words, symbols)
  | (_, .label _) :: rest => encode words symbols rest
  | (line, .address value) :: rest =>
    match addressOf symbols value line with
    | .error e => (.error e, symbols)
    | .ok (address, symbols) => encode (words.push (addressWord address)) symbols rest
  | (line, .compute dest comp jump) :: rest =>
    match computeWord dest comp jump line with
    | .error e => (.error e, symbols)
    | .ok word => encode (words.push word) symbols rest

/-- Assemble a program over symbols that may be bound already. Symbols bound before an error stay
bound. -/
def assemble (symbols : AssemblySymbols) (source : List Char) :
    Except AssemblyError Assembly × AssemblySymbols :=
  match Instruction.parseProgram source with
  | .error e => (.error e, symbols)
  | .ok program =>
    match bindLabels 0 symbols program with
    | (.error e, symbols) => (.error e, symbols)
    | (.ok (), symbols) =>
      match encode #[] symbols program with
      | (.error e, symbols) => (.error e, symbols)
      | (.ok words, symbols) =>
        (.ok ⟨words, ⟨words.size, symbols.labelCount, symbols.variableCount⟩⟩, symbols)

/-- What is reported of the passes over a program. -/
def passEvents : Except AssemblyError Assembly → List Event
  | .error _ => []
  | .ok ⟨_, stats⟩ =>
    [.debug "Assembly passes finished"
      [("instructions", toString stats.instructions), ("labels", toString stats.labelCount),
        ("variables", toString stats.variableCount)]]

/-- Assemble a program by itself, with a report of how it went. -/
def ofSource (source : List Char) : Except AssemblyError Assembly × List Event :=
  let result := (assemble .initial source).1
  let ending := match result with
    | .ok ⟨_, stats⟩ =>
      Event.success .assembled "Assembly completed"
        [("instructions", toString stats.instructions), ("labels", toString stats.labelCount),
          ("variables", toString stats.variableCount)]
    | .error e =>
      Event.error e.code "Assembly failed"
        [("error", e.message), ("line", (e.line?.map toString).getD "")]
  (result, passEvents result ++ [ending])

end Assembly

end NandTools
