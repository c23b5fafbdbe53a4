import NandTools.Proofs.Machine.Execution
import NandTools.Proofs.Vm.Meaning
import NandTools.Vm.Code

/-! What the code of a command does when it is followed. -/
namespace NandTools

theorem Word.Ordinary.lt_cells {cell : Word} (ordinary : cell.Ordinary) :
    cell.toNat < Machine.cells := Nat.lt_trans ordinary.2 (by decide)

/-- Registers are not ordinary. -/
theorem Word.Ordinary.ne {cell register : Word} (ordinary : cell.Ordinary)
    (low : register.toNat < Limits.variableBase) : cell ≠ register := by
  rintro rfl
  exact absurd ordinary.1 (Nat.not_le_of_lt low)

theorem Word.toNat_address {address : Nat} (small : address ≤ Limits.address) :
    (BitVec.ofNat 16 address).toNat = address := by
  rw [BitVec.toNat_ofNat, Nat.mod_eq_of_lt]
  exact Nat.lt_of_le_of_lt small (by decide)

theorem Word.toNat_lt_cells {address : Nat} (small : address ≤ Limits.address) :
    (BitVec.ofNat 16 address).toNat < Machine.cells := by
  rw [Word.toNat_address small]
  exact Nat.lt_succ_of_le small

namespace AssemblySymbols

theorem Extends.valueOf?_predefined {symbols : AssemblySymbols} (extended : initial.Extends symbols)
    {name : String} {address : Nat} (listed : (name, address) ∈ predefined) :
    symbols.valueOf? name = some address := by
  have checked : ∀ entry ∈ predefined, Instruction.isSymbol entry.1.toList = true := by
    decide +kernel
  rw [valueOf?_of_symbol (checked _ listed)]
  exact congrArg (Option.map Binding.address) (extended name _ (bindings_of_predefined listed))

end AssemblySymbols

/-- The name of a segment's register is bound to it. -/
theorem Segment.register?_of_base? {segment : Segment} {base : String}
    (based : segment.base? = some base) : ∃ address, (base, address) ∈ AssemblySymbols.predefined ∧
      address < Limits.variableBase ∧ segment.register? = some (.ofNat 16 address) := by
  cases segment with
  | local_ => exact ⟨1, by cases based; decide, by decide, rfl⟩
  | argument => exact ⟨2, by cases based; decide, by decide, rfl⟩
  | this_ => exact ⟨3, by cases based; decide, by decide, rfl⟩
  | that => exact ⟨4, by cases based; decide, by decide, rfl⟩
  | _ => cases based

theorem Segment.cell?_of_base? {statics : Nat → Option Word} {ram : Word → Word} {segment : Segment}
    {base : String} (based : segment.base? = some base) (index : Nat) :
    segment.cell? statics ram index = segment.based? ram index := by
  cases segment with
  | local_ | argument | this_ | that => rfl
  | constant | temp | pointer | static => cases based

theorem Segment.value?_of_ne {statics : Nat → Option Word} {ram : Word → Word} {segment : Segment}
    (other : segment ≠ .constant) (index : Nat) :
    segment.value? statics ram index = (segment.cell? statics ram index).map ram := by
  cases segment with
  | constant => exact absurd rfl other
  | _ => rfl

namespace CodeWriter

open Function (update)
open Instruction (address)
open Machine

variable {symbols : AssemblySymbols} {ram : Word → Word} {a d : Word} {pc : Nat}
  {rest : List Instruction}

private theorem zero_lt_cells : (0#16).toNat < cells := by decide

section Stack

variable (extended : AssemblySymbols.initial.Extends symbols)
include extended

theorem valueOf?_sp : symbols.valueOf? "SP" = some 0 := extended.valueOf?_predefined (by decide)

theorem valueOf?_lcl : symbols.valueOf? "LCL" = some 1 := extended.valueOf?_predefined (by decide)

theorem valueOf?_arg : symbols.valueOf? "ARG" = some 2 := extended.valueOf?_predefined (by decide)

theorem valueOf?_frameRegister : symbols.valueOf? frameRegister = some 14 :=
  extended.valueOf?_predefined (by decide +kernel)

theorem valueOf?_returnRegister : symbols.valueOf? returnRegister = some 15 :=
  extended.valueOf?_predefined (by decide +kernel)

/-- The value on top is taken off the stack. -/
theorem follow?_popToD {top value : Word} (pointed : ram 0 - 1 = top) (held : ram top = value)
    (inside : top.toNat < cells) (apart : top ≠ 0) :
    follow? symbols ⟨ram, a, d, pc⟩ (popToD ++ rest) =
      follow? symbols ⟨update ram 0 top, top, value, pc + 3⟩ rest := by
  have kept : update ram 0 top top = value := by
    rw [Function.update_of_ne apart, held]
  calc follow? symbols ⟨ram, a, d, pc⟩ (popToD ++ rest)
    _ = follow? symbols ⟨ram, 0, d, pc + 1⟩ (set "AM" "M-1" :: set "D" "M" :: rest) :=
      follow?_address (valueOf?_sp extended)
    _ = follow? symbols ⟨update ram 0 (ram 0 - 1), ram 0 - 1, d, pc + 2⟩ (set "D" "M" :: rest) :=
      follow?_compute zero_lt_cells rfl
    _ = follow? symbols ⟨update ram 0 top, top, d, pc + 2⟩ (set "D" "M" :: rest) := by rw [pointed]
    _ = follow? symbols ⟨update ram 0 top, top, update ram 0 top top, pc + 3⟩ rest :=
      follow?_compute inside rfl
    _ = _ := by rw [kept]

/-- The value on top is taken off the stack, and A is left at the one below. -/
theorem follow?_popToD_down (top : (ram 0 - 1).Ordinary) :
    follow? symbols ⟨ram, a, d, pc⟩ (popToD ++ set "A" "A-1" :: rest) =
      follow? symbols ⟨update ram 0 (ram 0 - 1), ram 0 - 2, ram (ram 0 - 1), pc + 4⟩ rest := by
  have down : ram 0 - 1 - 1 = ram 0 - 2 := by bv_omega
  calc follow? symbols ⟨ram, a, d, pc⟩ (popToD ++ set "A" "A-1" :: rest)
    _ = follow? symbols ⟨update ram 0 (ram 0 - 1), ram 0 - 1, ram (ram 0 - 1), pc + 3⟩
          (set "A" "A-1" :: rest) :=
      follow?_popToD extended rfl rfl top.lt_cells (top.ne (by decide))
    _ = follow? symbols ⟨update ram 0 (ram 0 - 1), ram 0 - 1 - 1, ram (ram 0 - 1), pc + 4⟩ rest :=
      follow?_compute top.lt_cells rfl
    _ = _ := by rw [down]

/-- The value of D is put on top of the stack. -/
theorem follow?_pushD (inside : (ram 0).toNat < cells) (apart : ram 0 ≠ 0) :
    follow? symbols ⟨ram, a, d, pc⟩ (pushD ++ rest) =
      follow? symbols ⟨update (update ram (ram 0) d) 0 (ram 0 + 1), 0, d, pc + 5⟩ rest := by
  have kept : update ram (ram 0) d 0 = ram 0 :=
    Function.update_of_ne apart.symm _ _
  calc follow? symbols ⟨ram, a, d, pc⟩ (pushD ++ rest)
    _ = follow? symbols ⟨ram, 0, d, pc + 1⟩
          (set "A" "M" :: set "M" "D" :: address "SP" :: set "M" "M+1" :: rest) :=
      follow?_address (valueOf?_sp extended)
    _ = follow? symbols ⟨ram, ram 0, d, pc + 2⟩
          (set "M" "D" :: address "SP" :: set "M" "M+1" :: rest) :=
      follow?_compute zero_lt_cells rfl
    _ = follow? symbols ⟨update ram (ram 0) d, ram 0, d, pc + 3⟩
          (address "SP" :: set "M" "M+1" :: rest) := follow?_compute inside rfl
    _ = follow? symbols ⟨update ram (ram 0) d, 0, d, pc + 4⟩ (set "M" "M+1" :: rest) :=
      follow?_address (valueOf?_sp extended)
    _ = follow? symbols
          ⟨update (update ram (ram 0) d) 0 (update ram (ram 0) d 0 + 1), 0, d, pc + 5⟩ rest :=
      follow?_compute zero_lt_cells rfl
    _ = _ := by rw [kept]

/-- The value on top is replaced by a computation of it. -/
theorem follow?_onTop {comp : String} {top value : Word} (pointed : ram 0 - 1 = top)
    (ordinary : top.Ordinary)
    (computed : ∀ a d, Mnemonic.value? a d (ram top) comp = some value) :
    follow? symbols ⟨ram, a, d, pc⟩ (onTop comp ++ rest) =
      follow? symbols ⟨update ram top value, top, d, pc + 3⟩ rest := by
  have done : compute? ⟨ram, top, d, pc + 2⟩ "M" comp "" =
      some ⟨update ram top value, top, d, pc + 3⟩ := by
    rw [compute?, computed]
    rfl
  calc follow? symbols ⟨ram, a, d, pc⟩ (onTop comp ++ rest)
    _ = follow? symbols ⟨ram, 0, d, pc + 1⟩ (set "A" "M-1" :: set "M" comp :: rest) :=
      follow?_address (valueOf?_sp extended)
    _ = follow? symbols ⟨ram, ram 0 - 1, d, pc + 2⟩ (set "M" comp :: rest) :=
      follow?_compute zero_lt_cells rfl
    _ = follow? symbols ⟨ram, top, d, pc + 2⟩ (set "M" comp :: rest) := by rw [pointed]
    _ = _ := follow?_compute ordinary.lt_cells done

/-- The value on top is taken off the stack, and the one below is replaced by a computation. -/
theorem follow?_combine {comp : String} {value : Word} (top : (ram 0 - 1).Ordinary)
    (below : (ram 0 - 2).Ordinary)
    (computed : ∀ a, Mnemonic.value? a (ram (ram 0 - 1)) (ram (ram 0 - 2)) comp = some value) :
    follow? symbols ⟨ram, a, d, pc⟩ (combine comp ++ rest) =
      follow? symbols ⟨update (update ram (ram 0 - 2) value) 0 (ram 0 - 1), ram 0 - 2,
        ram (ram 0 - 1), pc + 5⟩ rest := by
  have apart : ram 0 - 2 ≠ 0 := below.ne (by decide)
  have done : compute? ⟨update ram 0 (ram 0 - 1), ram 0 - 2, ram (ram 0 - 1), pc + 4⟩ "M" comp "" =
      some ⟨update (update ram 0 (ram 0 - 1)) (ram 0 - 2) value, ram 0 - 2, ram (ram 0 - 1),
        pc + 5⟩ := by
    dsimp only [compute?]
    rw [Function.update_of_ne apart, computed]
    rfl
  calc follow? symbols ⟨ram, a, d, pc⟩ (combine comp ++ rest)
    _ = follow? symbols ⟨update ram 0 (ram 0 - 1), ram 0 - 2, ram (ram 0 - 1), pc + 4⟩
          (set "M" comp :: rest) := follow?_popToD_down extended top
    _ = follow? symbols ⟨update (update ram 0 (ram 0 - 1)) (ram 0 - 2) value, ram 0 - 2,
          ram (ram 0 - 1), pc + 5⟩ rest := follow?_compute below.lt_cells done
    _ = _ := by rw [Function.update_comm apart]

end Stack

section Segments

variable (extended : AssemblySymbols.initial.Extends symbols)
include extended

private theorem valueOf?_base {segment : Segment} {base : String} {index : Nat} {cell : Word}
    (based : segment.base? = some base) (found : segment.based? ram index = some cell) :
    ∃ register, symbols.valueOf? base = some register ∧ (BitVec.ofNat 16 register).toNat < cells ∧
      cell = ram (.ofNat 16 register) + .ofNat 16 index := by
  obtain ⟨register, listed, low, known⟩ := Segment.register?_of_base? based
  rw [Segment.based?, known] at found
  cases found
  refine ⟨register, extended.valueOf?_predefined listed, Word.toNat_lt_cells ?_, rfl⟩
  exact Nat.le_of_lt (Nat.lt_trans low (by decide))

/-- The value of a segment's cell is brought into D. -/
theorem follow?_loadBased {segment : Segment} {base : String} {index : Nat} {cell : Word}
    (based : segment.base? = some base) (small : index ≤ Limits.address)
    (found : segment.based? ram index = some cell) (ordinary : cell.Ordinary) :
    follow? symbols ⟨ram, a, d, pc⟩
        ((if index = 0 then [address base, set "A" "M", set "D" "M"]
          else [address (toString index), set "D" "A", address base, set "A" "M+D",
            set "D" "M"]) ++ rest) =
      follow? symbols ⟨ram, cell, ram cell, pc + if index = 0 then 3 else 5⟩ rest := by
  obtain ⟨register, meant, inside, rfl⟩ := valueOf?_base extended based found
  split
  · next first =>
    subst first
    have start : ram (.ofNat 16 register) = ram (.ofNat 16 register) + .ofNat 16 0 :=
      (BitVec.add_zero _).symm
    calc follow? symbols ⟨ram, a, d, pc⟩
          ([address base, set "A" "M", set "D" "M"] ++ rest)
      _ = follow? symbols ⟨ram, .ofNat 16 register, d, pc + 1⟩ (set "A" "M" :: set "D" "M" :: rest) :=
        follow?_address meant
      _ = follow? symbols ⟨ram, ram (.ofNat 16 register), d, pc + 2⟩ (set "D" "M" :: rest) :=
        follow?_compute inside rfl
      _ = follow? symbols ⟨ram, ram (.ofNat 16 register) + .ofNat 16 0, d, pc + 2⟩
            (set "D" "M" :: rest) := by rw [← start]
      _ = _ := follow?_compute ordinary.lt_cells rfl
  · next later =>
    have swap : BitVec.ofNat 16 index + ram (.ofNat 16 register) =
        ram (.ofNat 16 register) + .ofNat 16 index := BitVec.add_comm _ _
    calc follow? symbols ⟨ram, a, d, pc⟩
          ([address (toString index), set "D" "A", address base, set "A" "M+D", set "D" "M"] ++ rest)
      _ = follow? symbols ⟨ram, .ofNat 16 index, d, pc + 1⟩
            (set "D" "A" :: address base :: set "A" "M+D" :: set "D" "M" :: rest) :=
        follow?_address (AssemblySymbols.valueOf?_toString symbols small)
      _ = follow? symbols ⟨ram, .ofNat 16 index, .ofNat 16 index, pc + 2⟩
            (address base :: set "A" "M+D" :: set "D" "M" :: rest) :=
        follow?_compute (Word.toNat_lt_cells small) rfl
      _ = follow? symbols ⟨ram, .ofNat 16 register, .ofNat 16 index, pc + 3⟩
            (set "A" "M+D" :: set "D" "M" :: rest) := follow?_address meant
      _ = follow? symbols ⟨ram, .ofNat 16 index + ram (.ofNat 16 register), .ofNat 16 index, pc + 4⟩
            (set "D" "M" :: rest) := follow?_compute inside rfl
      _ = follow? symbols ⟨ram, ram (.ofNat 16 register) + .ofNat 16 index, .ofNat 16 index, pc + 4⟩
            (set "D" "M" :: rest) := by rw [swap]
      _ = _ := follow?_compute ordinary.lt_cells rfl

/-- The address of a segment's cell is brought into D. -/
theorem follow?_pointBased {segment : Segment} {base : String} {index : Nat} {cell : Word}
    (based : segment.base? = some base) (small : index ≤ Limits.address)
    (found : segment.based? ram index = some cell) :
    ∃ a', follow? symbols ⟨ram, a, d, pc⟩
        ((if index = 0 then [address base, set "D" "M"]
          else [address (toString index), set "D" "A", address base, set "D" "M+D"]) ++ rest) =
      follow? symbols ⟨ram, a', cell, pc + if index = 0 then 2 else 4⟩ rest := by
  obtain ⟨register, meant, inside, rfl⟩ := valueOf?_base extended based found
  refine ⟨.ofNat 16 register, ?_⟩
  split
  · next first =>
    subst first
    have start : ram (.ofNat 16 register) = ram (.ofNat 16 register) + .ofNat 16 0 :=
      (BitVec.add_zero _).symm
    calc follow? symbols ⟨ram, a, d, pc⟩ ([address base, set "D" "M"] ++ rest)
      _ = follow? symbols ⟨ram, .ofNat 16 register, d, pc + 1⟩ (set "D" "M" :: rest) :=
        follow?_address meant
      _ = follow? symbols ⟨ram, .ofNat 16 register, ram (.ofNat 16 register), pc + 2⟩ rest :=
        follow?_compute inside rfl
      _ = _ := by rw [← start]
  · have swap : BitVec.ofNat 16 index + ram (.ofNat 16 register) =
        ram (.ofNat 16 register) + .ofNat 16 index := BitVec.add_comm _ _
    calc follow? symbols ⟨ram, a, d, pc⟩
          ([address (toString index), set "D" "A", address base, set "D" "M+D"] ++ rest)
      _ = follow? symbols ⟨ram, .ofNat 16 index, d, pc + 1⟩
            (set "D" "A" :: address base :: set "D" "M+D" :: rest) :=
        follow?_address (AssemblySymbols.valueOf?_toString symbols small)
      _ = follow? symbols ⟨ram, .ofNat 16 index, .ofNat 16 index, pc + 2⟩
            (address base :: set "D" "M+D" :: rest) :=
        follow?_compute (Word.toNat_lt_cells small) rfl
      _ = follow? symbols ⟨ram, .ofNat 16 register, .ofNat 16 index, pc + 3⟩
            (set "D" "M+D" :: rest) := follow?_address meant
      _ = follow? symbols ⟨ram, .ofNat 16 register, .ofNat 16 index + ram (.ofNat 16 register),
            pc + 4⟩ rest := follow?_compute inside rfl
      _ = _ := by rw [swap]

/-- The value on top is put into the cell whose address is in D, which a register keeps. -/
theorem follow?_popTo (cell : Word) (ordinary : cell.Ordinary) (top : (ram 0 - 1).Ordinary) :
    follow? symbols ⟨ram, a, cell, pc⟩
        ([address addressRegister, set "M" "D"] ++ popToD ++
          [address addressRegister, set "A" "M", set "M" "D"]) =
      some ⟨update (update (update ram 13 cell) 0 (ram 0 - 1)) cell (ram (ram 0 - 1)), cell,
        ram (ram 0 - 1), pc + 8⟩ := by
  have meant : symbols.valueOf? addressRegister = some 13 :=
    extended.valueOf?_predefined (by decide +kernel)
  have inside : (13#16).toNat < cells := by decide
  have pointed : update ram 13 cell 0 - 1 = ram 0 - 1 := by rw [Function.update_of_ne (by decide)]
  have value : update ram 13 cell (ram 0 - 1) = ram (ram 0 - 1) :=
    Function.update_of_ne (top.ne (by decide)) _ _
  have kept : update (update ram 13 cell) 0 (ram 0 - 1) 13 = cell := by
    rw [Function.update_of_ne (by decide), Function.update_self]
  calc follow? symbols ⟨ram, a, cell, pc⟩
        ([address addressRegister, set "M" "D"] ++ popToD ++
          [address addressRegister, set "A" "M", set "M" "D"])
    _ = follow? symbols ⟨ram, 13, cell, pc + 1⟩
          (set "M" "D" :: (popToD ++ [address addressRegister, set "A" "M", set "M" "D"])) :=
      follow?_address meant
    _ = follow? symbols ⟨update ram 13 cell, 13, cell, pc + 2⟩
          (popToD ++ [address addressRegister, set "A" "M", set "M" "D"]) :=
      follow?_compute inside rfl
    _ = follow? symbols ⟨update (update ram 13 cell) 0 (ram 0 - 1), ram 0 - 1, ram (ram 0 - 1),
          pc + 5⟩ [address addressRegister, set "A" "M", set "M" "D"] :=
      follow?_popToD extended pointed value top.lt_cells (top.ne (by decide))
    _ = follow? symbols ⟨update (update ram 13 cell) 0 (ram 0 - 1), 13, ram (ram 0 - 1), pc + 6⟩
          [set "A" "M", set "M" "D"] := follow?_address meant
    _ = follow? symbols ⟨update (update ram 13 cell) 0 (ram 0 - 1),
          update (update ram 13 cell) 0 (ram 0 - 1) 13, ram (ram 0 - 1), pc + 7⟩
          [set "M" "D"] := follow?_compute inside rfl
    _ = follow? symbols ⟨update (update ram 13 cell) 0 (ram 0 - 1), cell, ram (ram 0 - 1), pc + 7⟩
          [set "M" "D"] := by rw [kept]
    _ = follow? symbols ⟨update (update (update ram 13 cell) 0 (ram 0 - 1)) cell (ram (ram 0 - 1)),
          cell, ram (ram 0 - 1), pc + 8⟩ [] := follow?_compute ordinary.lt_cells rfl

end Segments

theorem pushCode_of_base? {module base : String} {segment : Segment}
    (based : segment.base? = some base) (index : Nat) : pushCode module segment index =
      (if index = 0 then [address base, set "A" "M", set "D" "M"]
        else [address (toString index), set "D" "A", address base, set "A" "M+D",
          set "D" "M"]) ++ pushD := by
  cases segment with
  | local_ | argument | this_ | that =>
    cases based
    rfl
  | constant | temp | pointer | static => cases based

theorem pushCode_of_direct {module : String} {segment : Segment} (direct : segment.base? = none)
    (other : segment ≠ .constant) (index : Nat) : pushCode module segment index =
      address (directAddress module segment index) :: set "D" "M" :: pushD := by
  cases segment with
  | constant => exact absurd rfl other
  | temp | pointer | static => rfl
  | local_ | argument | this_ | that => cases direct

theorem popCode_of_base? {module base : String} {segment : Segment}
    (based : segment.base? = some base) (index : Nat) : popCode module segment index =
      (if index = 0 then [address base, set "D" "M"]
        else [address (toString index), set "D" "A", address base, set "D" "M+D"]) ++
      ([address addressRegister, set "M" "D"] ++ popToD ++
        [address addressRegister, set "A" "M", set "M" "D"]) := by
  rw [popCode, based]
  simp only [List.append_assoc]

theorem popCode_of_direct {module : String} {segment : Segment} (direct : segment.base? = none)
    (index : Nat) : popCode module segment index =
      popToD ++ [address (directAddress module segment index), set "M" "D"] := by
  rw [popCode, direct]

/-- The cells of the statics of a module. -/
def statics (symbols : AssemblySymbols) (module : String) (index : Nat) : Option Word :=
  (symbols.cell? s!"{module}.{index}").map (BitVec.ofNat 16)

theorem toList_static (module : String) (index : Nat) :
    (s!"{module}.{index}").toList = module.toList ++ '.' :: (toString index).toList := by
  simp [toString]

theorem isSymbol_static {module : String} (named : Instruction.isSymbol module.toList = true)
    (index : Nat) : Instruction.isSymbol (s!"{module}.{index}").toList = true := by
  rw [toList_static]
  refine Instruction.isSymbol_append named ?_
  rw [List.all_cons, Instruction.isSymbolChar_of_toString]
  rfl

section Commands

variable (extended : AssemblySymbols.initial.Extends symbols) (bounded : symbols.Bounded)
  {module : String} (named : Instruction.isSymbol module.toList = true) {segment : Segment}
  {index : Nat} (has : segment.Has index)
include extended bounded named has

/-- Cells without a register to point to them have an address of their own. -/
theorem valueOf?_directAddress {cell : Word} (direct : segment.base? = none)
    (found : segment.cell? (statics symbols module) ram index = some cell) :
    ∃ address, symbols.valueOf? (directAddress module segment index) = some address ∧
      (BitVec.ofNat 16 address).toNat < cells ∧ cell = .ofNat 16 address := by
  cases segment with
  | constant => cases found
  | local_ | argument | this_ | that => cases direct
  | temp =>
    have small : Limits.tempBase + index ≤ Limits.address := by
      have inside : index < 8 := has.2 8 rfl
      rw [Limits.tempBase, Limits.address]
      omega
    cases found
    exact ⟨5 + index, AssemblySymbols.valueOf?_toString symbols small, Word.toNat_lt_cells small, rfl⟩
  | pointer =>
    have inside : index < 2 := has.2 2 rfl
    have cases : index = 0 ∨ index = 1 := by omega
    cases found
    rcases cases with rfl | rfl
    · have listed : ("THIS", 3) ∈ AssemblySymbols.predefined := by decide
      exact ⟨3, extended.valueOf?_predefined listed, by decide, rfl⟩
    · have listed : ("THAT", 4) ∈ AssemblySymbols.predefined := by decide
      exact ⟨4, extended.valueOf?_predefined listed, by decide, rfl⟩
  | static =>
    obtain ⟨address, allocated, rfl⟩ := Option.map_eq_some_iff.mp found
    have meant : symbols.valueOf? s!"{module}.{index}" = some address := by
      rw [AssemblySymbols.valueOf?_of_symbol (isSymbol_static named index)]
      exact congrArg (Option.map Binding.address) (AssemblySymbols.cell?_eq_some.mp allocated)
    exact ⟨address, meant, Word.toNat_lt_cells (bounded.valueOf?_le meant), rfl⟩

theorem follow?_pushCode {value : Word}
    (valued : segment.value? (statics symbols module) ram index = some value)
    (pointer : (ram 0).Ordinary) (ordinary : ∀ cell ∈ segment.based? ram index, cell.Ordinary) :
    ∃ m, follow? symbols ⟨ram, a, d, pc⟩ (pushCode module segment index) = some m ∧
      m.ram = update (update ram (ram 0) value) 0 (ram 0 + 1) := by
  have pushed {a d : Word} {pc : Nat} : follow? symbols ⟨ram, a, d, pc⟩ pushD =
      some ⟨update (update ram (ram 0) d) 0 (ram 0 + 1), 0, d, pc + 5⟩ := by
    rw [← List.append_nil pushD]
    exact follow?_pushD extended pointer.lt_cells (pointer.ne (by decide))
  cases based : segment.base? with
  | some base =>
    rw [Segment.value?_of_ne (by rintro rfl; cases based), Segment.cell?_of_base? based] at valued
    obtain ⟨cell, found, rfl⟩ := Option.map_eq_some_iff.mp valued
    rw [pushCode_of_base? based,
      follow?_loadBased extended based has.1 found (ordinary cell found), pushed]
    exact ⟨_, rfl, rfl⟩
  | none =>
    by_cases constant : segment = .constant
    · subst constant
      cases valued
      have loaded : follow? symbols ⟨ram, a, d, pc⟩ (pushCode module .constant index) =
          follow? symbols ⟨ram, .ofNat 16 index, .ofNat 16 index, pc + 2⟩ pushD :=
        (follow?_address (AssemblySymbols.valueOf?_toString symbols has.1)).trans
          (follow?_compute (Word.toNat_lt_cells has.1) rfl)
      rw [loaded, pushed]
      exact ⟨_, rfl, rfl⟩
    · rw [Segment.value?_of_ne constant] at valued
      obtain ⟨cell, found, rfl⟩ := Option.map_eq_some_iff.mp valued
      obtain ⟨address, meant, inside, rfl⟩ :=
        valueOf?_directAddress extended bounded named has based found
      have loaded : follow? symbols ⟨ram, a, d, pc⟩ (pushCode module segment index) =
          follow? symbols ⟨ram, .ofNat 16 address, ram (.ofNat 16 address), pc + 2⟩ pushD := by
        rw [pushCode_of_direct based constant]
        exact (follow?_address meant).trans (follow?_compute inside rfl)
      rw [loaded, pushed]
      exact ⟨_, rfl, rfl⟩

theorem follow?_popCode {cell : Word}
    (found : segment.cell? (statics symbols module) ram index = some cell)
    (top : (ram 0 - 1).Ordinary) (ordinary : ∀ cell ∈ segment.based? ram index, cell.Ordinary) :
    ∃ m, follow? symbols ⟨ram, a, d, pc⟩ (popCode module segment index) = some m ∧
      ∀ other, other ≠ 13 →
        m.ram other = update (update ram 0 (ram 0 - 1)) cell (ram (ram 0 - 1)) other := by
  cases based : segment.base? with
  | some base =>
    rw [Segment.cell?_of_base? based] at found
    obtain ⟨a', pointed⟩ := follow?_pointBased extended based has.1 found
    rw [popCode_of_base? based, pointed, follow?_popTo extended cell (ordinary cell found) top]
    refine ⟨_, rfl, fun other unkept => ?_⟩
    simp only [Function.update_apply, unkept, if_false]
  | none =>
    obtain ⟨address, meant, inside, rfl⟩ :=
      valueOf?_directAddress extended bounded named has based found
    have followed : follow? symbols ⟨ram, a, d, pc⟩ (popCode module segment index) =
        follow? symbols ⟨update (update ram 0 (ram 0 - 1)) (.ofNat 16 address) (ram (ram 0 - 1)),
          .ofNat 16 address, ram (ram 0 - 1), pc + 5⟩ [] := by
      rw [popCode_of_direct based]
      exact (follow?_popToD extended rfl rfl top.lt_cells (top.ne (by decide))).trans
        ((follow?_address meant).trans (follow?_compute inside rfl))
    exact ⟨_, followed, fun other _ => rfl⟩

end Commands

theorem follow?_operationCode (extended : AssemblySymbols.initial.Extends symbols)
    {operation : Operation} (plain : operation ∉ [.eq, .gt, .lt])
    (ordinary : ∀ cell ∈ (VmCommand.arithmetic operation).touched ram, cell.Ordinary)
    (number : Nat) :
    ∃ m, follow? symbols ⟨ram, a, d, pc⟩ (operationCode number operation) = some m ∧
      m.ram = operation.apply ram := by
  have top := VmCommand.ordinary_top ordinary
  have unary {comp : String} {value : Word}
      (computed : ∀ a d, Mnemonic.value? a d (ram (ram 0 - 1)) comp = some value) :
      ∃ m, follow? symbols ⟨ram, a, d, pc⟩ (onTop comp) = some m ∧
        m.ram = update ram (ram 0 - 1) value := by
    rw [← List.append_nil (onTop comp), follow?_onTop extended rfl top computed]
    exact ⟨_, rfl, rfl⟩
  have binary (both : operation.isUnary = false) {comp : String} {value : Word}
      (computed : ∀ a,
        Mnemonic.value? a (ram (ram 0 - 1)) (ram (ram 0 - 2)) comp = some value) :
      ∃ m, follow? symbols ⟨ram, a, d, pc⟩ (combine comp) = some m ∧
        m.ram = update (update ram (ram 0 - 2) value) 0 (ram 0 - 1) := by
    have below := VmCommand.ordinary_below ordinary both
    rw [← List.append_nil (combine comp), follow?_combine extended top below computed]
    exact ⟨_, rfl, rfl⟩
  cases operation with
  | neg => exact unary fun _ _ => rfl
  | not => exact unary fun _ _ => rfl
  | add => exact binary rfl fun _ => congrArg some (BitVec.add_comm _ _)
  | sub => exact binary rfl fun _ => rfl
  | and => exact binary rfl fun _ => congrArg some (BitVec.and_comm _ _)
  | or => exact binary rfl fun _ => congrArg some (BitVec.or_comm _ _)
  | eq | gt | lt => simp at plain

end CodeWriter

end NandTools
