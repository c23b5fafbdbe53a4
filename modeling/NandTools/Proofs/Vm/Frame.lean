import NandTools.Proofs.Vm.Blocks

/-! Frames on the stack: registers are saved by pushes and restored from the top of the frame
down. -/
namespace NandTools

open Function (update)

namespace Word

/-- The values of `count` cells from `first` on. -/
def block (ram : Word → Word) (first count : Nat) : List Word :=
  (List.range count).map fun offset => ram (.ofNat 16 (first + offset))

theorem block_succ (ram : Word → Word) (first count : Nat) :
    block ram first (count + 1) = block ram first count ++ [ram (.ofNat 16 (first + count))] := by
  rw [block, List.range_succ, List.map_append]
  rfl

theorem block_congr {ram ram' : Word → Word} {first count : Nat}
    (same : ∀ address, first ≤ address → address < first + count →
      ram (.ofNat 16 address) = ram' (.ofNat 16 address)) :
    block ram first count = block ram' first count := by
  refine List.map_congr_left fun offset member => ?_
  have inside := List.mem_range.mp member
  exact same _ (Nat.le_add_right _ _) (by omega)

theorem ofNat_ne {x y : Nat} (left : x ≤ Machine.cells) (right : y ≤ Machine.cells)
    (other : x ≠ y) : BitVec.ofNat 16 x ≠ BitVec.ofNat 16 y := by
  rw [Machine.cells] at left right
  intro same
  have numbers := congrArg BitVec.toNat same
  rw [BitVec.toNat_ofNat, BitVec.toNat_ofNat] at numbers
  omega

theorem toNat_cell {address : Nat} (inside : address < Machine.cells) :
    (BitVec.ofNat 16 address).toNat = address := toNat_address (Nat.le_of_lt_succ inside)

/-- Registers lie below everything else. -/
theorem ofNat_ne_register {address : Nat} {register : Word} (inside : address < Machine.cells)
    (above : Limits.variableBase ≤ address) (low : register.toNat < Limits.variableBase) :
    BitVec.ofNat 16 address ≠ register := by
  rintro rfl
  rw [toNat_cell inside] at low
  exact Nat.not_lt_of_le above low

end Word

/-- Values were pushed from `base` on, and nothing else was changed but the pointer to the stack. -/
structure Pushed (ram ram' : Word → Word) (base : Nat) (values : List Word) : Prop where
  pointer : ram' 0 = .ofNat 16 (base + values.length)
  stored : Word.block ram' base values.length = values
  kept : ∀ cell : Word, cell ≠ 0 → cell.toNat < base ∨ base + values.length ≤ cell.toNat →
    ram' cell = ram cell

namespace Pushed

variable {ram ram' : Word → Word} {base : Nat} {values : List Word}

theorem start (pointer : ram 0 = .ofNat 16 base) : Pushed ram ram base [] where
  pointer := pointer
  stored := rfl
  kept _ _ _ := rfl

theorem push (pushed : Pushed ram ram' base values) (positive : 0 < base)
    (room : base + values.length < Machine.cells) (value : Word) :
    Pushed ram (update (update ram' (ram' 0) value) 0 (ram' 0 + 1)) base (values ++ [value]) := by
  have apart (address : Nat) (low : base ≤ address) (high : address ≤ base + values.length) :
      BitVec.ofNat 16 address ≠ 0 := Word.ofNat_ne (y := 0) (by omega) (by decide) (by omega)
  rw [pushed.pointer]
  refine ⟨?_, ?_, fun cell other outside => ?_⟩
  · rw [Function.update_self, List.length_append, ← Nat.add_assoc]
    exact (BitVec.ofNat_add _ 1).symm
  · rw [List.length_append, List.length_singleton, Word.block_succ,
      Function.update_of_ne (apart _ (by omega) (by omega)), Function.update_self]
    refine congrArg (· ++ [value]) (Eq.trans ?_ pushed.stored)
    refine Word.block_congr fun address low high => ?_
    rw [Function.update_of_ne (apart _ low (by omega)),
      Function.update_of_ne (Word.ofNat_ne (by omega) (by omega) (by omega))]
  · rw [List.length_append, List.length_singleton] at outside
    have above : cell ≠ .ofNat 16 (base + values.length) := by
      rintro rfl
      rw [Word.toNat_cell room] at outside
      omega
    rw [Function.update_of_ne other, Function.update_of_ne above]
    exact pushed.kept cell other (by omega)

end Pushed

/-- Registers were restored in their order from the cells below `top`, down from the highest. The
frame register points to the last one that was used. -/
structure Restored (ram ram' : Word → Word) (top : Nat) (registers : List Word) : Prop where
  pointer : ram' 14 = .ofNat 16 (top - registers.length)
  restored : registers.map ram' =
    (List.range registers.length).map fun depth => ram (.ofNat 16 (top - depth - 1))
  kept : ∀ cell : Word, cell ≠ 14 → cell ∉ registers → ram' cell = ram cell

namespace Restored

variable {ram ram' : Word → Word} {top : Nat} {registers : List Word}

theorem start (pointer : ram 14 = .ofNat 16 top) : Restored ram ram top [] where
  pointer := pointer
  restored := rfl
  kept _ _ _ := rfl

theorem down (restored : Restored ram ram' top registers) (deep : registers.length < top) :
    ram' 14 - 1 = .ofNat 16 (top - registers.length - 1) := by
  rw [restored.pointer]
  exact BitVec.ofNat_sub_ofNat_of_le _ 1 (by decide) (by omega)

theorem restore (restored : Restored ram ram' top registers)
    (deep : Limits.variableBase + registers.length < top)
    (low : ∀ register ∈ registers, register.toNat < Limits.variableBase)
    {register : Word} (distinct : (14 :: (registers ++ [register])).Nodup)
    (inside : top ≤ Machine.cells) :
    Restored ram (update (update ram' 14 (ram' 14 - 1)) register (ram' (ram' 14 - 1))) top
      (registers ++ [register]) := by
  have other : register ≠ 14 := fun same => (List.nodup_cons.mp distinct).1 (by simp [same])
  have unframed : 14 ∉ registers :=
    fun member => (List.nodup_cons.mp distinct).1 (List.mem_append_left _ member)
  have new : register ∉ registers := fun member =>
    (List.nodup_append.mp (List.nodup_cons.mp distinct).2).2.2 _ member _ List.mem_cons_self rfl
  rw [Limits.variableBase] at deep low
  have size : Machine.cells = 32768 := rfl
  have held : ram' (.ofNat 16 (top - registers.length - 1)) =
      ram (.ofNat 16 (top - registers.length - 1)) := by
    refine restored.kept _ (Word.ofNat_ne (y := 14) ?_ (by decide) (by omega)) fun member => ?_
    · omega
    · have below := low _ member
      rw [Word.toNat_cell (by omega)] at below
      omega
  rw [restored.down (by omega), held]
  refine ⟨?_, ?_, fun cell unkept outside => ?_⟩
  · rw [Function.update_of_ne other.symm, Function.update_self, List.length_append]
    rfl
  · rw [List.length_append, List.length_singleton, List.range_succ, List.map_append,
      List.map_append, ← restored.restored]
    refine congrArg₂ (· ++ ·) (List.map_congr_left fun cell member => ?_) ?_
    · have apart : cell ≠ register := fun same => new (same ▸ member)
      have unpointed : cell ≠ 14 := fun same => unframed (same ▸ member)
      rw [Function.update_of_ne apart, Function.update_of_ne unpointed]
    · simp
  · rw [List.mem_append, List.mem_singleton, not_or] at outside
    rw [Function.update_of_ne outside.2, Function.update_of_ne unkept]
    exact restored.kept cell unkept outside.1

end Restored

namespace CodeWriter

open Instruction (address)
open Machine

variable {symbols : AssemblySymbols} {ram ram' : Word → Word} {a d : Word} {pc : Nat}
  {rest : List Instruction}

def saveCode (register : String) : List Instruction := [address register, set "D" "M"] ++ pushD

def restoreCode (register : String) : List Instruction :=
  [address frameRegister, set "AM" "M-1", set "D" "M", address register, set "M" "D"]

/-- Registers with their addresses, below those that the code of commands uses besides. -/
def IsRegister (register : String × Nat) : Prop :=
  register ∈ AssemblySymbols.predefined ∧ 0 < register.2 ∧ register.2 < 13

namespace IsRegister

variable {register : String × Nat}

theorem low (known : IsRegister register) :
    (BitVec.ofNat 16 register.2).toNat < Limits.variableBase := by
  have bounds := known.2
  have size : cells = 32768 := rfl
  rw [Word.toNat_cell (by omega), Limits.variableBase]
  omega

theorem lt_cells (known : IsRegister register) : (BitVec.ofNat 16 register.2).toNat < cells :=
  Nat.lt_trans known.low (by decide)

theorem ne_zero (known : IsRegister register) : BitVec.ofNat 16 register.2 ≠ 0 := by
  have bounds := known.2
  have size : cells = 32768 := rfl
  exact Word.ofNat_ne (y := 0) (by omega) (by decide) (by omega)

end IsRegister

section Registers

variable (extended : AssemblySymbols.initial.Extends symbols)
include extended

theorem follow?_save {register : String × Nat} (known : IsRegister register)
    (inside : (ram 0).toNat < cells) (apart : ram 0 ≠ 0) :
    follow? symbols ⟨ram, a, d, pc⟩ (saveCode register.1 ++ rest) =
      follow? symbols ⟨update (update ram (ram 0) (ram (.ofNat 16 register.2))) 0 (ram 0 + 1), 0,
        ram (.ofNat 16 register.2), pc + 7⟩ rest :=
  calc follow? symbols ⟨ram, a, d, pc⟩ (saveCode register.1 ++ rest)
    _ = follow? symbols ⟨ram, .ofNat 16 register.2, d, pc + 1⟩ (set "D" "M" :: (pushD ++ rest)) :=
      follow?_address (extended.valueOf?_predefined known.1)
    _ = follow? symbols ⟨ram, .ofNat 16 register.2, ram (.ofNat 16 register.2), pc + 2⟩
          (pushD ++ rest) := follow?_compute known.lt_cells rfl
    _ = _ := follow?_pushD extended inside apart

/-- The cell below the one that the frame register points to is brought into a register. -/
theorem follow?_restore {register : String × Nat} (known : IsRegister register)
    (inside : (ram 14 - 1).toNat < cells) (apart : ram 14 - 1 ≠ 14) :
    follow? symbols ⟨ram, a, d, pc⟩ (restoreCode register.1 ++ rest) =
      follow? symbols ⟨update (update ram 14 (ram 14 - 1)) (.ofNat 16 register.2)
        (ram (ram 14 - 1)), .ofNat 16 register.2, ram (ram 14 - 1), pc + 5⟩ rest := by
  have pointer : (14#16).toNat < cells := by decide
  calc follow? symbols ⟨ram, a, d, pc⟩ (restoreCode register.1 ++ rest)
    _ = follow? symbols ⟨ram, 14, d, pc + 1⟩
          (set "AM" "M-1" :: set "D" "M" :: address register.1 :: set "M" "D" :: rest) :=
      follow?_address (valueOf?_frameRegister extended)
    _ = follow? symbols ⟨update ram 14 (ram 14 - 1), ram 14 - 1, d, pc + 2⟩
          (set "D" "M" :: address register.1 :: set "M" "D" :: rest) :=
      follow?_compute pointer rfl
    _ = follow? symbols ⟨update ram 14 (ram 14 - 1), ram 14 - 1,
          update ram 14 (ram 14 - 1) (ram 14 - 1), pc + 3⟩
          (address register.1 :: set "M" "D" :: rest) := follow?_compute inside rfl
    _ = follow? symbols ⟨update ram 14 (ram 14 - 1), ram 14 - 1, ram (ram 14 - 1), pc + 3⟩
          (address register.1 :: set "M" "D" :: rest) := by rw [Function.update_of_ne apart]
    _ = follow? symbols ⟨update ram 14 (ram 14 - 1), .ofNat 16 register.2, ram (ram 14 - 1),
          pc + 4⟩ (set "M" "D" :: rest) := follow?_address (extended.valueOf?_predefined known.1)
    _ = _ := follow?_compute known.lt_cells rfl

/-- The values of registers are pushed in their order. -/
theorem follow?_saves {base : Nat} {values : List Word} {registers : List (String × Nat)}
    (known : ∀ register ∈ registers, IsRegister register) (above : Limits.variableBase ≤ base)
    (pushed : Pushed ram ram' base values)
    (room : base + values.length + registers.length ≤ cells) :
    ∃ saved, Pushed ram saved base
        (values ++ registers.map fun register => ram (.ofNat 16 register.2)) ∧
      ∀ a d pc rest, ∃ a' d', follow? symbols ⟨ram', a, d, pc⟩
          (registers.flatMap (fun register => saveCode register.1) ++ rest) =
        follow? symbols ⟨saved, a', d', pc + 7 * registers.length⟩ rest := by
  induction registers generalizing ram' values with
  | nil => exact ⟨ram', by simpa using pushed, fun a d pc rest => ⟨a, d, rfl⟩⟩
  | cons register registers ih =>
    have first := known register List.mem_cons_self
    have least : Limits.variableBase = 16 := rfl
    rw [List.length_cons] at room
    have value : ram' (.ofNat 16 register.2) = ram (.ofNat 16 register.2) :=
      pushed.kept _ first.ne_zero (.inl (Nat.lt_of_lt_of_le first.low above))
    have pointed : (ram' 0).toNat = base + values.length := by
      rw [pushed.pointer, Word.toNat_cell (by omega)]
    have apart : ram' 0 ≠ 0 := by
      rw [pushed.pointer]
      exact Word.ofNat_ne (y := 0) (by omega) (by decide) (by omega)
    have next := pushed.push (by omega) (by omega) (ram' (.ofNat 16 register.2))
    obtain ⟨saved, done, followed⟩ := ih
      (fun other member => known other (List.mem_cons_of_mem _ member)) next
      (by rw [List.length_append, List.length_singleton]; omega)
    refine ⟨saved, by simpa [value] using done, fun a d pc rest => ?_⟩
    obtain ⟨a', d', followed⟩ := followed 0 (ram' (.ofNat 16 register.2)) (pc + 7) rest
    refine ⟨a', d', ?_⟩
    rw [List.flatMap_cons, List.append_assoc, follow?_save extended first (by omega) apart,
      followed, List.length_cons, Nat.mul_succ, Nat.add_right_comm, Nat.add_assoc]

/-- Registers are restored in their order, from the top of a frame down. -/
theorem follow?_restores {top : Nat} {before registers : List (String × Nat)}
    (known : ∀ register ∈ before ++ registers, IsRegister register)
    (distinct : (14 :: (before ++ registers).map fun register => BitVec.ofNat 16 register.2).Nodup)
    (deep : Limits.variableBase + before.length + registers.length ≤ top) (inside : top ≤ cells)
    (restored : Restored ram ram' top (before.map fun register => .ofNat 16 register.2)) :
    ∃ after, Restored ram after top
        ((before ++ registers).map fun register => .ofNat 16 register.2) ∧
      ∀ a d pc rest, ∃ a' d', follow? symbols ⟨ram', a, d, pc⟩
          (registers.flatMap (fun register => restoreCode register.1) ++ rest) =
        follow? symbols ⟨after, a', d', pc + 5 * registers.length⟩ rest := by
  induction registers generalizing ram' before with
  | nil => exact ⟨ram', by simpa using restored, fun a d pc rest => ⟨a, d, rfl⟩⟩
  | cons register registers ih =>
    have first : IsRegister register := known register (by simp)
    have least : Limits.variableBase = 16 := rfl
    rw [List.length_cons] at deep
    have down := restored.down (by rw [List.length_map]; omega)
    rw [List.length_map] at down
    have cell : (ram' 14 - 1).toNat < cells := by
      rw [down, Word.toNat_cell (by omega)]
      omega
    have apart : ram' 14 - 1 ≠ 14 := by
      rw [down]
      exact Word.ofNat_ne (y := 14) (by omega) (by decide) (by omega)
    have low : ∀ word ∈ before.map fun register => BitVec.ofNat 16 register.2,
        word.toNat < Limits.variableBase := by
      intro word member
      obtain ⟨other, among, rfl⟩ := List.mem_map.mp member
      exact (known other (List.mem_append_left _ among)).low
    have next : Restored ram
        (update (update ram' 14 (ram' 14 - 1)) (.ofNat 16 register.2) (ram' (ram' 14 - 1))) top
        ((before ++ [register]).map fun register => .ofNat 16 register.2) := by
      rw [List.map_append]
      exact restored.restore (by rw [List.length_map]; omega) low (distinct.sublist (by simp)) inside
    obtain ⟨after, done, followed⟩ := ih (by simpa using known) (by simpa using distinct)
      (by rw [List.length_append, List.length_singleton]; omega) next
    refine ⟨after, by simpa using done, fun a d pc rest => ?_⟩
    obtain ⟨a', d', followed⟩ := followed (.ofNat 16 register.2) (ram' (ram' 14 - 1)) (pc + 5) rest
    refine ⟨a', d', ?_⟩
    rw [List.flatMap_cons, List.append_assoc, follow?_restore extended first cell apart, followed,
      List.length_cons, Nat.mul_succ, Nat.add_right_comm, Nat.add_assoc]

end Registers

end CodeWriter

end NandTools
