import NandTools.Proofs.Vm.Frame

/-! The frame that the code of a call and the code of a return agree on. -/
namespace NandTools

open Function (update)

/-- What a call saves for the return to `next`. -/
def savedFrame (ram : Word → Word) (next : Nat) : List Word :=
  [.ofNat 16 next, ram 1, ram 2, ram 3, ram 4]

/-- The registers point to a frame of five cells from `base` on and to the arguments below it. -/
structure InFrame (ram : Word → Word) (saved : List Word) (base args : Nat) : Prop where
  frame : Word.block ram base 5 = saved
  lcl : ram 1 = .ofNat 16 (base + 5)
  arg : ram 2 = .ofNat 16 (base - args)

/-- Whatever leaves the frame and its registers alone stays in the frame. -/
theorem InFrame.of_kept {ram ram' : Word → Word} {saved : List Word} {base args : Nat}
    (framed : InFrame ram saved base args) (lcl : ram' 1 = ram 1) (arg : ram' 2 = ram 2)
    (kept : ∀ address, base ≤ address → address < base + 5 →
      ram' (.ofNat 16 address) = ram (.ofNat 16 address)) : InFrame ram' saved base args where
  frame := (Word.block_congr kept).trans framed.frame
  lcl := lcl.trans framed.lcl
  arg := arg.trans framed.arg

/-- A call saved the registers above the arguments, and changed nothing else but registers. -/
structure Entered (ram after : Word → Word) (base args next : Nat) : Prop extends
    InFrame after (savedFrame ram next) base args where
  sp : after 0 = .ofNat 16 (base + 5)
  kept : ∀ cell : Word, cell ∉ [0, 1, 2] → cell.toNat < base ∨ base + 5 ≤ cell.toNat →
    after cell = ram cell

/-- The registers of a call point to what it pushed. -/
theorem Pushed.entered {ram saved : Word → Word} {base args next : Nat}
    (pushed : Pushed ram saved base (savedFrame ram next))
    (above : Limits.variableBase + args ≤ base) (room : base + 5 < Machine.cells) :
    Entered ram (update (update saved 2 (.ofNat 16 (base - args))) 1 (.ofNat 16 (base + 5))) base
      args next where
  frame := by
    refine Eq.trans (Word.block_congr fun address low high => ?_) pushed.stored
    have arg : BitVec.ofNat 16 address ≠ 2 :=
      Word.ofNat_ne_register (by omega) (by omega) (by decide)
    have lcl : BitVec.ofNat 16 address ≠ 1 :=
      Word.ofNat_ne_register (by omega) (by omega) (by decide)
    rw [Function.update_of_ne lcl, Function.update_of_ne arg]
  lcl := Function.update_self _ _ _
  arg := by simp
  sp := by
    rw [Function.update_of_ne (by decide), Function.update_of_ne (by decide)]
    exact pushed.pointer
  kept cell other outside := by
    simp only [List.mem_cons, List.not_mem_nil, or_false, not_or] at other
    rw [Function.update_of_ne other.2.1, Function.update_of_ne other.2.2]
    exact pushed.kept cell other.1 outside

/-- A return put `value` where the arguments began and restored the registers. -/
structure Returned (ram after : Word → Word) (registers : List Word) (result : Nat) (value : Word) :
    Prop where
  sp : after 0 = .ofNat 16 (result + 1)
  value : after (.ofNat 16 result) = value
  registers : [1, 2, 3, 4].map after = registers
  kept : ∀ cell : Word, cell ∉ [0, 1, 2, 3, 4, 14, 15, .ofNat 16 result] → after cell = ram cell

/-- The data memory of a return before it restores the registers. -/
def resultMemory (ram : Word → Word) (next : Nat) : Word → Word :=
  update (update (update (update (update ram 14 (ram 1)) 15 (.ofNat 16 next)) 0 (ram 0 - 1))
    (ram 2) (ram (ram 0 - 1))) 0 (ram 2 + 1)

section Return

variable {ram after : Word → Word} {registers : List Word} {base args next : Nat}
  (framed : InFrame ram (.ofNat 16 next :: registers) base args)
  (above : Limits.variableBase + args ≤ base) (room : base + 5 < Machine.cells)
include framed above room

/-- The result is put below the registers that were saved. -/
theorem InFrame.resultMemory_saved {offset : Nat} (positive : 0 < offset) (few : offset < 5) :
    resultMemory ram next (.ofNat 16 (base + offset)) = ram (.ofNat 16 (base + offset)) := by
  have other {register : Word} (low : register.toNat < Limits.variableBase) :
      BitVec.ofNat 16 (base + offset) ≠ register :=
    Word.ofNat_ne_register (by omega) (by omega) low
  have apart : BitVec.ofNat 16 (base + offset) ≠ .ofNat 16 (base - args) :=
    Word.ofNat_ne (by omega) (by omega) (by omega)
  rw [resultMemory, framed.arg, Function.update_of_ne (other (by decide)),
    Function.update_of_ne apart, Function.update_of_ne (other (by decide)),
    Function.update_of_ne (other (by decide)), Function.update_of_ne (other (by decide))]

/-- The registers that a return works with are below the result. -/
theorem InFrame.resultMemory_links : resultMemory ram next 14 = .ofNat 16 (base + 5) ∧
    resultMemory ram next 15 = .ofNat 16 next := by
  have other {register : Word} (low : register.toNat < Limits.variableBase) :
      register ≠ .ofNat 16 (base - args) :=
    (Word.ofNat_ne_register (by omega) (by omega) low).symm
  have frame : 14#16 ≠ .ofNat 16 (base - args) := other (by decide)
  have link : 15#16 ≠ .ofNat 16 (base - args) := other (by decide)
  rw [resultMemory, framed.arg]
  constructor
  · simpa [Function.update_of_ne frame] using framed.lcl
  · simp [Function.update_of_ne link]

theorem InFrame.returned
    (restored : Restored (resultMemory ram next) after (base + 5) [4, 3, 2, 1]) :
    Returned ram after registers (base - args) (ram (ram 0 - 1)) where
  sp := by
    rw [restored.kept 0 (by decide) (by decide), resultMemory, Function.update_self, framed.arg]
    exact (BitVec.ofNat_add _ 1).symm
  value := by
    have other {register : Word} (low : register.toNat < Limits.variableBase) :
        BitVec.ofNat 16 (base - args) ≠ register :=
      Word.ofNat_ne_register (by omega) (by omega) low
    rw [restored.kept _ (other (by decide)), resultMemory, Function.update_of_ne (other (by decide)),
      framed.arg, Function.update_self]
    simp only [List.mem_cons, List.not_mem_nil, or_false, not_or]
    exact ⟨other (by decide), other (by decide), other (by decide), other (by decide)⟩
  registers := by
    have saved : [ram (.ofNat 16 (base + 1)), ram (.ofNat 16 (base + 2)),
        ram (.ofNat 16 (base + 3)), ram (.ofNat 16 (base + 4))] = registers :=
      (List.cons.inj framed.frame).2
    have read : [after 4, after 3, after 2, after 1] =
        [resultMemory ram next (.ofNat 16 (base + 4)), resultMemory ram next (.ofNat 16 (base + 3)),
          resultMemory ram next (.ofNat 16 (base + 2)),
          resultMemory ram next (.ofNat 16 (base + 1))] := restored.restored
    rw [framed.resultMemory_saved above room (by decide) (by decide),
      framed.resultMemory_saved above room (by decide) (by decide),
      framed.resultMemory_saved above room (by decide) (by decide),
      framed.resultMemory_saved above room (by decide) (by decide)] at read
    rw [← saved]
    exact congrArg List.reverse read
  kept cell other := by
    simp only [List.mem_cons, List.not_mem_nil, or_false, not_or] at other
    obtain ⟨zero, one, two, three, four, frame, link, result⟩ := other
    have unrestored : cell ∉ [4, 3, 2, 1] := by
      simp only [List.mem_cons, List.not_mem_nil, or_false, not_or]
      exact ⟨four, three, two, one⟩
    rw [restored.kept cell frame unrestored, resultMemory, framed.arg,
      Function.update_of_ne zero, Function.update_of_ne result, Function.update_of_ne zero,
      Function.update_of_ne link, Function.update_of_ne frame]

end Return

namespace CodeWriter

open Instruction (address label)
open Machine

variable {symbols : AssemblySymbols} {ram : Word → Word} {a d : Word} {pc : Nat}

def callerRegisters : List (String × Nat) := [("LCL", 1), ("ARG", 2), ("THIS", 3), ("THAT", 4)]

theorem isRegister_of_caller : ∀ register ∈ callerRegisters, IsRegister register := by
  unfold IsRegister
  decide

/-- Point to the arguments and to the locals of a frame that is on top of the stack. -/
def pointCode (args : Nat) : List Instruction :=
  [address "SP", set "D" "M", address (toString (args + 5)), set "D" "D-A",
    address "ARG", set "M" "D", address "SP", set "D" "M", address "LCL", set "M" "D"]

/-- What a call does before it jumps. -/
def enterCode (returnLabel name : String) (args : Nat) : List Instruction :=
  address returnLabel :: set "D" "A" :: (pushD ++
    (callerRegisters.flatMap (fun register => saveCode register.1) ++
      (pointCode args ++ [address name])))

theorem callCode_eq (returnLabel name : String) (args : Nat) : callCode returnLabel name args =
    enterCode returnLabel name args ++ [goto "0" "JMP", label returnLabel] := rfl

section Enter

variable (extended : AssemblySymbols.initial.Extends symbols)
include extended

theorem follow?_pointCode {args : Nat} (few : args + 5 ≤ Limits.address)
    (rest : List Instruction) :
    follow? symbols ⟨ram, a, d, pc⟩ (pointCode args ++ rest) =
      follow? symbols ⟨update (update ram 2 (ram 0 - .ofNat 16 (args + 5))) 1 (ram 0), 1, ram 0,
        pc + 10⟩ rest := by
  have sp := valueOf?_sp extended
  have lcl := valueOf?_lcl extended
  have arg := valueOf?_arg extended
  have kept (value : Word) : update ram 2 value 0 = ram 0 := Function.update_of_ne (by decide) _ _
  have zero : (0#16).toNat < cells := by decide
  have one : (1#16).toNat < cells := by decide
  have two : (2#16).toNat < cells := by decide
  calc follow? symbols ⟨ram, a, d, pc⟩ (pointCode args ++ rest)
    _ = follow? symbols ⟨ram, 0, d, pc + 1⟩ (set "D" "M" :: address (toString (args + 5)) ::
          set "D" "D-A" :: address "ARG" :: set "M" "D" :: address "SP" :: set "D" "M" ::
            address "LCL" :: set "M" "D" :: rest) := follow?_address sp
    _ = follow? symbols ⟨ram, 0, ram 0, pc + 2⟩ (address (toString (args + 5)) ::
          set "D" "D-A" :: address "ARG" :: set "M" "D" :: address "SP" :: set "D" "M" ::
            address "LCL" :: set "M" "D" :: rest) := follow?_compute zero rfl
    _ = follow? symbols ⟨ram, .ofNat 16 (args + 5), ram 0, pc + 3⟩ (set "D" "D-A" ::
          address "ARG" :: set "M" "D" :: address "SP" :: set "D" "M" :: address "LCL" ::
            set "M" "D" :: rest) :=
      follow?_address (AssemblySymbols.valueOf?_toString symbols few)
    _ = follow? symbols ⟨ram, .ofNat 16 (args + 5), ram 0 - .ofNat 16 (args + 5), pc + 4⟩
          (address "ARG" :: set "M" "D" :: address "SP" :: set "D" "M" :: address "LCL" ::
            set "M" "D" :: rest) := follow?_compute (Word.toNat_lt_cells few) rfl
    _ = follow? symbols ⟨ram, 2, ram 0 - .ofNat 16 (args + 5), pc + 5⟩
          (set "M" "D" :: address "SP" :: set "D" "M" :: address "LCL" :: set "M" "D" :: rest) :=
      follow?_address arg
    _ = follow? symbols ⟨update ram 2 (ram 0 - .ofNat 16 (args + 5)), 2,
          ram 0 - .ofNat 16 (args + 5), pc + 6⟩
          (address "SP" :: set "D" "M" :: address "LCL" :: set "M" "D" :: rest) :=
      follow?_compute two rfl
    _ = follow? symbols ⟨update ram 2 (ram 0 - .ofNat 16 (args + 5)), 0,
          ram 0 - .ofNat 16 (args + 5), pc + 7⟩
          (set "D" "M" :: address "LCL" :: set "M" "D" :: rest) := follow?_address sp
    _ = follow? symbols ⟨update ram 2 (ram 0 - .ofNat 16 (args + 5)), 0,
          update ram 2 (ram 0 - .ofNat 16 (args + 5)) 0, pc + 8⟩
          (address "LCL" :: set "M" "D" :: rest) := follow?_compute zero rfl
    _ = follow? symbols ⟨update ram 2 (ram 0 - .ofNat 16 (args + 5)), 0, ram 0, pc + 8⟩
          (address "LCL" :: set "M" "D" :: rest) := by rw [kept]
    _ = follow? symbols ⟨update ram 2 (ram 0 - .ofNat 16 (args + 5)), 1, ram 0, pc + 9⟩
          (set "M" "D" :: rest) := follow?_address lcl
    _ = _ := follow?_compute one rfl

theorem follow?_enterCode {returnLabel name : String} {base args next target : Nat}
    (returns : symbols.valueOf? returnLabel = some next)
    (enters : symbols.valueOf? name = some target) (inside : next < Limits.romWords)
    (few : args + 5 ≤ Limits.address) (pointer : ram 0 = .ofNat 16 base)
    (above : Limits.variableBase + args ≤ base) (room : base + 5 < cells) :
    ∃ after d', Entered ram after base args next ∧
      follow? symbols ⟨ram, a, d, pc⟩ (enterCode returnLabel name args) =
        some ⟨after, .ofNat 16 target, d', pc + 46⟩ := by
  have least : Limits.variableBase = 16 := rfl
  have size : cells = 32768 := rfl
  have apart : ram 0 ≠ 0 := by
    rw [pointer]
    exact Word.ofNat_ne (y := 0) (by omega) (by decide) (by omega)
  have below : (ram 0).toNat < cells := by
    rw [pointer, Word.toNat_cell (by omega)]
    omega
  have reachable : (BitVec.ofNat 16 next).toNat < cells := by
    rw [Word.toNat_cell inside]
    exact inside
  have first := (Pushed.start pointer).push (by omega) (by rw [List.length_nil]; omega)
    (.ofNat 16 next)
  obtain ⟨saved, pushed, followed⟩ := follow?_saves extended isRegister_of_caller (by omega) first
    (by simp only [callerRegisters, List.length_cons, List.length_nil, List.length_append]; omega)
  obtain ⟨a', d', followed⟩ :=
    followed 0 (.ofNat 16 next) (pc + 7) (pointCode args ++ [address name])
  have top : saved 0 = .ofNat 16 (base + 5) := pushed.pointer
  have arguments : BitVec.ofNat 16 (base + 5) - .ofNat 16 (args + 5) = .ofNat 16 (base - args) := by
    rw [BitVec.ofNat_sub_ofNat_of_le _ _ (by omega) (by omega)]
    congr 1
    omega
  have followed := calc follow? symbols ⟨ram, a, d, pc⟩ (enterCode returnLabel name args)
    _ = follow? symbols ⟨ram, .ofNat 16 next, d, pc + 1⟩ (set "D" "A" :: (pushD ++
          (callerRegisters.flatMap (fun register => saveCode register.1) ++
            (pointCode args ++ [address name])))) := follow?_address returns
    _ = follow? symbols ⟨ram, .ofNat 16 next, .ofNat 16 next, pc + 2⟩ (pushD ++
          (callerRegisters.flatMap (fun register => saveCode register.1) ++
            (pointCode args ++ [address name]))) := follow?_compute reachable rfl
    _ = _ := follow?_pushD extended below apart
    _ = _ := followed
    _ = _ := follow?_pointCode extended few _
    _ = _ := follow?_address enters
  rw [top, arguments] at followed
  exact ⟨_, _, pushed.entered above room, followed⟩

end Enter

/-- Keep the address of the frame and the one to return to. -/
def linkCode : List Instruction :=
  [address "LCL", set "D" "M", address frameRegister, set "M" "D",
    address "5", set "A" "D-A", set "D" "M", address returnRegister, set "M" "D"]

/-- Put the result where the arguments began. -/
def resultCode : List Instruction :=
  [address "ARG", set "A" "M", set "M" "D", address "ARG", set "D" "M+1", address "SP",
    set "M" "D"]

/-- What a return does before it jumps. -/
def leaveCode : List Instruction :=
  linkCode ++ (popToD ++ (resultCode ++
    (callerRegisters.reverse.flatMap (fun register => restoreCode register.1) ++
      [address returnRegister, set "A" "M"])))

theorem returnCode_eq : returnCode = leaveCode ++ [goto "0" "JMP"] := rfl

section Leave

variable (extended : AssemblySymbols.initial.Extends symbols)
include extended

theorem follow?_linkCode (inside : (ram 1 - 5).toNat < cells) (apart : ram 1 - 5 ≠ 14)
    (rest : List Instruction) :
    follow? symbols ⟨ram, a, d, pc⟩ (linkCode ++ rest) =
      follow? symbols ⟨update (update ram 14 (ram 1)) 15 (ram (ram 1 - 5)), 15, ram (ram 1 - 5),
        pc + 9⟩ rest := by
  have lcl := valueOf?_lcl extended
  have frame := valueOf?_frameRegister extended
  have back := valueOf?_returnRegister extended
  have offset : (5#16).toNat < cells := by decide
  have five : symbols.valueOf? "5" = some 5 := if_pos rfl
  have one : (1#16).toNat < cells := by decide
  have fourteen : (14#16).toNat < cells := by decide
  have fifteen : (15#16).toNat < cells := by decide
  calc follow? symbols ⟨ram, a, d, pc⟩ (linkCode ++ rest)
    _ = follow? symbols ⟨ram, 1, d, pc + 1⟩ (set "D" "M" :: address frameRegister ::
          set "M" "D" :: address "5" :: set "A" "D-A" :: set "D" "M" :: address returnRegister ::
            set "M" "D" :: rest) := follow?_address lcl
    _ = follow? symbols ⟨ram, 1, ram 1, pc + 2⟩ (address frameRegister ::
          set "M" "D" :: address "5" :: set "A" "D-A" :: set "D" "M" :: address returnRegister ::
            set "M" "D" :: rest) := follow?_compute one rfl
    _ = follow? symbols ⟨ram, 14, ram 1, pc + 3⟩ (set "M" "D" :: address "5" :: set "A" "D-A" ::
          set "D" "M" :: address returnRegister :: set "M" "D" :: rest) := follow?_address frame
    _ = follow? symbols ⟨update ram 14 (ram 1), 14, ram 1, pc + 4⟩ (address "5" ::
          set "A" "D-A" :: set "D" "M" :: address returnRegister :: set "M" "D" :: rest) :=
      follow?_compute fourteen rfl
    _ = follow? symbols ⟨update ram 14 (ram 1), 5, ram 1, pc + 5⟩ (set "A" "D-A" ::
          set "D" "M" :: address returnRegister :: set "M" "D" :: rest) := follow?_address five
    _ = follow? symbols ⟨update ram 14 (ram 1), ram 1 - 5, ram 1, pc + 6⟩ (set "D" "M" ::
          address returnRegister :: set "M" "D" :: rest) := follow?_compute offset rfl
    _ = follow? symbols ⟨update ram 14 (ram 1), ram 1 - 5, update ram 14 (ram 1) (ram 1 - 5),
          pc + 7⟩ (address returnRegister :: set "M" "D" :: rest) := follow?_compute inside rfl
    _ = follow? symbols ⟨update ram 14 (ram 1), ram 1 - 5, ram (ram 1 - 5), pc + 7⟩
          (address returnRegister :: set "M" "D" :: rest) := by rw [Function.update_of_ne apart]
    _ = follow? symbols ⟨update ram 14 (ram 1), 15, ram (ram 1 - 5), pc + 8⟩
          (set "M" "D" :: rest) := follow?_address back
    _ = _ := follow?_compute fifteen rfl

theorem follow?_resultCode (inside : (ram 2).toNat < cells) (apart : ram 2 ≠ 2)
    (rest : List Instruction) :
    follow? symbols ⟨ram, a, d, pc⟩ (resultCode ++ rest) =
      follow? symbols ⟨update (update ram (ram 2) d) 0 (ram 2 + 1), 0, ram 2 + 1, pc + 7⟩ rest := by
  have sp := valueOf?_sp extended
  have arg := valueOf?_arg extended
  have zero : (0#16).toNat < cells := by decide
  have two : (2#16).toNat < cells := by decide
  have kept : update ram (ram 2) d 2 = ram 2 := Function.update_of_ne apart.symm _ _
  calc follow? symbols ⟨ram, a, d, pc⟩ (resultCode ++ rest)
    _ = follow? symbols ⟨ram, 2, d, pc + 1⟩ (set "A" "M" :: set "M" "D" :: address "ARG" ::
          set "D" "M+1" :: address "SP" :: set "M" "D" :: rest) := follow?_address arg
    _ = follow? symbols ⟨ram, ram 2, d, pc + 2⟩ (set "M" "D" :: address "ARG" ::
          set "D" "M+1" :: address "SP" :: set "M" "D" :: rest) := follow?_compute two rfl
    _ = follow? symbols ⟨update ram (ram 2) d, ram 2, d, pc + 3⟩ (address "ARG" ::
          set "D" "M+1" :: address "SP" :: set "M" "D" :: rest) := follow?_compute inside rfl
    _ = follow? symbols ⟨update ram (ram 2) d, 2, d, pc + 4⟩ (set "D" "M+1" :: address "SP" ::
          set "M" "D" :: rest) := follow?_address arg
    _ = follow? symbols ⟨update ram (ram 2) d, 2, update ram (ram 2) d 2 + 1, pc + 5⟩
          (address "SP" :: set "M" "D" :: rest) := follow?_compute two rfl
    _ = follow? symbols ⟨update ram (ram 2) d, 2, ram 2 + 1, pc + 5⟩
          (address "SP" :: set "M" "D" :: rest) := by rw [kept]
    _ = follow? symbols ⟨update ram (ram 2) d, 0, ram 2 + 1, pc + 6⟩ (set "M" "D" :: rest) :=
      follow?_address sp
    _ = _ := follow?_compute zero rfl

section Framed

variable {registers : List Word} {base args next : Nat}
  (framed : InFrame ram (.ofNat 16 next :: registers) base args)
  (above : Limits.variableBase + args ≤ base) (room : base + 5 ≤ (ram 0 - 1).toNat)
  (inside : (ram 0 - 1).toNat < cells)
include framed above room inside

/-- Until it restores the registers, a return changes the memory only by the result and by what it
keeps for itself. -/
theorem follow?_resultMemory (rest : List Instruction) :
    follow? symbols ⟨ram, a, d, pc⟩ (linkCode ++ (popToD ++ (resultCode ++ rest))) =
      follow? symbols ⟨resultMemory ram next, 0, ram 2 + 1, pc + 19⟩ rest := by
  have least : Limits.variableBase = 16 := rfl
  have size : cells = 32768 := rfl
  have bottom : ram 1 - 5 = .ofNat 16 base := by
    rw [framed.lcl]
    exact BitVec.ofNat_sub_ofNat_of_le _ 5 (by decide) (by omega)
  have link : ram (ram 1 - 5) = .ofNat 16 next := by
    rw [bottom]
    exact (List.cons.inj framed.frame).1
  have low : (ram 1 - 5).toNat < cells := by
    rw [bottom, Word.toNat_cell (by omega)]
    omega
  have apart : ram 1 - 5 ≠ 14 := by
    rw [bottom]
    exact Word.ofNat_ne_register (by omega) (by omega) (by decide)
  have high {register : Word} (low : register.toNat < Limits.variableBase) :
      ram 0 - 1 ≠ register := by
    rintro rfl
    omega
  have pointed : update (update ram 14 (ram 1)) 15 (.ofNat 16 next) 0 - 1 = ram 0 - 1 := by
    simp
  have held : update (update ram 14 (ram 1)) 15 (.ofNat 16 next) (ram 0 - 1) =
      ram (ram 0 - 1) := by
    rw [Function.update_of_ne (high (by decide)), Function.update_of_ne (high (by decide))]
  have result : update (update (update ram 14 (ram 1)) 15 (.ofNat 16 next)) 0 (ram 0 - 1) 2 =
      ram 2 := by
    simp
  have resultInside : (update (update (update ram 14 (ram 1)) 15 (.ofNat 16 next)) 0
      (ram 0 - 1) 2).toNat < cells := by
    rw [result, framed.arg, Word.toNat_cell (by omega)]
    omega
  have resultApart : update (update (update ram 14 (ram 1)) 15 (.ofNat 16 next)) 0
      (ram 0 - 1) 2 ≠ 2 := by
    rw [result, framed.arg]
    exact Word.ofNat_ne_register (by omega) (by omega) (by decide)
  calc follow? symbols ⟨ram, a, d, pc⟩ (linkCode ++ (popToD ++ (resultCode ++ rest)))
    _ = follow? symbols ⟨update (update ram 14 (ram 1)) 15 (.ofNat 16 next), 15, .ofNat 16 next,
          pc + 9⟩ (popToD ++ (resultCode ++ rest)) := by
      rw [follow?_linkCode extended low apart, link]
    _ = _ := follow?_popToD extended pointed held inside (high (by decide))
    _ = _ := follow?_resultCode extended resultInside resultApart rest
    _ = _ := by
      rw [result]
      rfl

theorem follow?_leaveCode :
    ∃ after d', Returned ram after registers (base - args) (ram (ram 0 - 1)) ∧
      follow? symbols ⟨ram, a, d, pc⟩ leaveCode = some ⟨after, .ofNat 16 next, d', pc + 41⟩ := by
  have least : Limits.variableBase = 16 := rfl
  have register := valueOf?_returnRegister extended
  have fifteen : (15#16).toNat < cells := by decide
  have known : ∀ register ∈ [] ++ callerRegisters.reverse, IsRegister register := by
    intro register member
    exact isRegister_of_caller register (List.mem_reverse.mp member)
  obtain ⟨frame, back⟩ := framed.resultMemory_links above (by omega)
  obtain ⟨after, restored, followed⟩ := follow?_restores extended known (by decide)
    (by simp only [callerRegisters, List.length_reverse, List.length_cons, List.length_nil]; omega)
    (by omega) (Restored.start frame)
  obtain ⟨a', d', followed⟩ :=
    followed 0 (ram 2 + 1) (pc + 19) [address returnRegister, set "A" "M"]
  have kept : after 15 = .ofNat 16 next := by
    rw [restored.kept 15 (by decide) (by decide), back]
  refine ⟨after, d', framed.returned above (by omega) restored, ?_⟩
  calc follow? symbols ⟨ram, a, d, pc⟩ leaveCode
    _ = follow? symbols ⟨resultMemory ram next, 0, ram 2 + 1, pc + 19⟩
          (callerRegisters.reverse.flatMap (fun register => restoreCode register.1) ++
            [address returnRegister, set "A" "M"]) :=
      follow?_resultMemory extended framed above room inside _
    _ = follow? symbols ⟨after, a', d', pc + 39⟩ [address returnRegister, set "A" "M"] := followed
    _ = follow? symbols ⟨after, 15, d', pc + 40⟩ [set "A" "M"] := follow?_address register
    _ = follow? symbols ⟨after, after 15, d', pc + 41⟩ [] := follow?_compute fifteen rfl
    _ = _ := by rw [kept]; rfl

end Framed

end Leave

end CodeWriter

end NandTools
