import Mathlib.Logic.Function.Basic
import Mathlib.Logic.Relation
import NandTools.Assembly.Program

/-! The machine that assembled programs run on. -/
namespace NandTools

abbrev Word := BitVec 16

namespace Word

/-- The value of binary digits, highest first. -/
def valueOf (digits : List Char) : Nat :=
  digits.foldl (fun value digit => 2 * value + if digit = '1' then 1 else 0) 0

def ofText? (text : String) : Option Word :=
  let digits := text.toList
  if digits.isEmpty || !digits.all fun digit => digit == '0' || digit == '1' then none
  else if valueOf digits < 65536 then some (.ofNat 16 (valueOf digits))
  else none

end Word

/-- The contents of the program memory. -/
def Assembly.rom? (assembly : Assembly) : Option (List Word) :=
  assembly.words.toList.mapM Word.ofText?

structure Machine where
  ram : Word → Word
  a : Word
  d : Word
  pc : Nat

namespace Machine

/-- The number of cells of the data memory. -/
def cells : Nat := 32768

/-- The result of a computing instruction on two inputs, after its control bits. -/
def result (word x y : Word) : Word :=
  let x := if word.getLsbD 11 then 0 else x
  let x := if word.getLsbD 10 then ~~~x else x
  let y := if word.getLsbD 9 then 0 else y
  let y := if word.getLsbD 8 then ~~~y else y
  let out := if word.getLsbD 7 then x + y else x &&& y
  if word.getLsbD 6 then ~~~out else out

/-- Whether a computing instruction jumps, after its jump bits and its result. -/
def leaps (word out : Word) : Bool :=
  word.getLsbD 2 && out.msb || word.getLsbD 1 && out == 0 ||
    word.getLsbD 0 && !out.msb && out != 0

/-- Execute one instruction. There is no cell outside of the data memory. -/
def execute? (m : Machine) (word : Word) : Option Machine :=
  if !word.getLsbD 15 then some { m with a := word, pc := m.pc + 1 }
  else if (word.getLsbD 12 || word.getLsbD 3) && cells ≤ m.a.toNat then none
  else
    let out := result word m.d (if word.getLsbD 12 then m.ram m.a else m.a)
    some
      { ram := if word.getLsbD 3 then Function.update m.ram m.a out else m.ram
        a := if word.getLsbD 5 then out else m.a
        d := if word.getLsbD 4 then out else m.d
        pc := if leaps word out then m.a.toNat else m.pc + 1 }

/-- Past the end of the program the machine stops. -/
def step? (rom : List Word) (m : Machine) : Option Machine := rom[m.pc]?.bind m.execute?

def Runs (rom : List Word) : Machine → Machine → Prop :=
  Relation.ReflTransGen fun m m' => m.step? rom = some m'

end Machine

end NandTools
