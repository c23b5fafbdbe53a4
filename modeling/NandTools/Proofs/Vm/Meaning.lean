import NandTools.Proofs.Machine.Cpu
import NandTools.Vm.Command

/-! What the commands of the stack machine mean for the data memory. -/
namespace NandTools

open Function (update)

namespace Word

/-- Stacks and segments lie above the registers and below the screen. -/
def Ordinary (cell : Word) : Prop :=
  Limits.variableBase ≤ cell.toNat ∧ cell.toNat < Limits.screen

def truth (holds : Bool) : Word := if holds then -1 else 0

end Word

namespace Segment

/-- The register of a segment whose first cell a register points to. -/
def register? : Segment → Option Word
  | local_ => some 1
  | argument => some 2
  | this_ => some 3
  | that => some 4
  | _ => none

/-- The cell at an index that a register points to the beginning of. -/
def based? (ram : Word → Word) (segment : Segment) (index : Nat) : Option Word :=
  segment.register?.map fun register => ram register + .ofNat 16 index

/-- The cell of an index, where `statics` holds the cells of the module's statics. -/
def cell? (statics : Nat → Option Word) (ram : Word → Word) (segment : Segment) (index : Nat) :
    Option Word :=
  match segment with
  | constant => none
  | temp => some (.ofNat 16 (5 + index))
  | pointer => some (.ofNat 16 (3 + index))
  | static => statics index
  | _ => segment.based? ram index

/-- What an index of a segment holds. A constant holds the index. -/
def value? (statics : Nat → Option Word) (ram : Word → Word) (segment : Segment) (index : Nat) :
    Option Word :=
  match segment with
  | constant => some (.ofNat 16 index)
  | _ => (segment.cell? statics ram index).map ram

theorem exists_cell {statics : Nat → Option Word} {segment : Segment} {index : Nat}
    (other : segment ≠ constant)
    (allocated : segment = static → ∃ cell, statics index = some cell) (ram : Word → Word) :
    ∃ cell, segment.cell? statics ram index = some cell := by
  cases segment with
  | constant => exact absurd rfl other
  | static => exact allocated rfl
  | _ => exact ⟨_, rfl⟩

/-- Indexes that commands may have. -/
def Has (segment : Segment) (index : Nat) : Prop :=
  index ≤ Limits.address ∧ ∀ size, segment.size? = some size → index < size

end Segment

/-- What an operation makes of the value on top, `y`, and the one below. -/
def Operation.result (x y : Word) : Operation → Word
  | add => x + y
  | sub => x - y
  | neg => -y
  | and => x &&& y
  | or => x ||| y
  | not => ~~~y
  | eq => .truth (x = y)
  | gt => .truth (y.toInt < x.toInt)
  | lt => .truth (x.toInt < y.toInt)

/-- The data memory after an operation. -/
def Operation.apply (ram : Word → Word) (operation : Operation) : Word → Word :=
  let result := operation.result (ram (ram 0 - 2)) (ram (ram 0 - 1))
  if operation.isUnary then update ram (ram 0 - 1) result
  else update (update ram (ram 0 - 2) result) 0 (ram 0 - 1)

namespace VmCommand

/-- The data memory after a command of memory or arithmetic. The first cell of the memory points
above the top of the stack. -/
def meaning? (statics : Nat → Option Word) (ram : Word → Word) : VmCommand → Option (Word → Word)
  | push segment index =>
    (segment.value? statics ram index).map fun value =>
      update (update ram (ram 0) value) 0 (ram 0 + 1)
  | pop segment index =>
    (segment.cell? statics ram index).map fun cell =>
      update (update ram 0 (ram 0 - 1)) cell (ram (ram 0 - 1))
  | arithmetic operation => some (operation.apply ram)
  | _ => none

/-- The pointer to the stack, and the cells of the stack and of a segment with a register that a
command reads or writes. -/
def touched (ram : Word → Word) : VmCommand → List Word
  | push segment index => ram 0 :: (segment.based? ram index).toList
  | pop segment index => ram 0 :: (ram 0 - 1) :: (segment.based? ram index).toList
  | arithmetic operation =>
    if operation.isUnary then [ram 0, ram 0 - 1] else [ram 0, ram 0 - 1, ram 0 - 2]
  | _ => []

/-- Cells that the code of a command may overwrite besides. -/
def scratch : VmCommand → List Word
  | pop .. => [13]
  | _ => []

/-- Commands of memory and arithmetic, but for the comparisons of order. -/
def isElementary : VmCommand → Bool
  | push .. | pop .. => true
  | arithmetic operation => operation != .gt && operation != .lt
  | _ => false

section Operands

variable {ram : Word → Word} {operation : Operation}
  (ordinary : ∀ cell ∈ (arithmetic operation).touched ram, cell.Ordinary)
include ordinary

theorem ordinary_top : (ram 0 - 1).Ordinary := by
  refine ordinary _ ?_
  rw [touched]
  split <;> simp

theorem ordinary_below (binary : operation.isUnary = false) : (ram 0 - 2).Ordinary :=
  ordinary _ (by simp [touched, binary])

end Operands

end VmCommand

end NandTools
