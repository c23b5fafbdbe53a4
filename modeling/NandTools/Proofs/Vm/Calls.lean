import NandTools.Proofs.Assembly.Reading
import NandTools.Proofs.Assembly.Reference
import NandTools.Proofs.Vm.Convention
import NandTools.Proofs.Vm.Legal

/-! Calls and returns in an assembled program. -/
namespace NandTools

open Function (update)

namespace CodeWriter

open Instruction (address label)
open Machine

variable {symbols : AssemblySymbols} {ram : Word → Word} {a d : Word} {pc : Nat}

/-- Whether an instruction loads nothing but numbers and predefined addresses. -/
def isFixed : Instruction → Bool
  | .address value => (Text.readNat Limits.address value.toList).isSome ||
    (AssemblySymbols.predefined.lookup value).isSome
  | _ => true

theorem fits_of_isFixed (extended : AssemblySymbols.initial.Extends symbols) {i : Instruction}
    (fixed : isFixed i = true) : i.Fits symbols := by
  cases i with
  | label name => trivial
  | compute dest comp jump => trivial
  | address value =>
    rcases Bool.or_eq_true_iff.mp fixed with numeral | listed
    · obtain ⟨n, read⟩ := Option.isSome_iff_exists.mp numeral
      exact Instruction.fits_of_valueOf? (Text.le_of_readNat read)
        (AssemblySymbols.valueOf?_of_readNat symbols read)
    · obtain ⟨address, found⟩ := Option.isSome_iff_exists.mp listed
      have listed := Mnemonic.mem_of_lookup found
      exact Instruction.fits_of_valueOf? (AssemblySymbols.predefined_le listed)
        (extended.valueOf?_predefined listed)

theorem fits_of_fixed (extended : AssemblySymbols.initial.Extends symbols)
    {code : List Instruction} (fixed : code.all isFixed = true) : ∀ i ∈ code, i.Fits symbols :=
  fun i member => fits_of_isFixed extended (List.all_eq_true.mp fixed i member)

theorem fixed_pointCode {args : Nat} (few : args + 5 ≤ Limits.address) :
    (pointCode args).all isFixed = true := by
  have numeral : isFixed (address (toString (args + 5))) = true := by
    rw [isFixed, Text.readNat_toString few]
    rfl
  simp only [pointCode, List.all_cons, numeral]
  decide +kernel

section Run

variable {rom : List Word} (extended : AssemblySymbols.initial.Extends symbols)
include extended

omit extended in
/-- Jump to the address that was loaded last. -/
theorem runs_jump {m : Machine} {target : Nat} {rest : List Instruction}
    (loaded : Loaded rom symbols m.pc (goto "0" "JMP" :: rest)) (pointed : m.a = .ofNat 16 target)
    (reach : target < Limits.romWords) :
    Runs rom m { m with pc := target } := by
  have inside : m.a.toNat = target := by
    rw [pointed, Word.toNat_cell reach]
  have fits : (goto "0" "JMP").Fits symbols := trivial
  have jumped := step?_of_perform? fits rfl loaded (perform?_jump (inside.symm ▸ reach) rfl)
  rw [inside] at jumped
  exact .single jumped

theorem runs_callCode {returnLabel name : String} {base args target : Nat}
    (returns : Instruction.isSymbol returnLabel.toList = true)
    (enters : symbols.valueOf? name = some target)
    (loaded : Loaded rom symbols pc (callCode returnLabel name args))
    (next : pc + 47 < Limits.romWords) (reach : target < Limits.romWords)
    (few : args + 5 ≤ Limits.address) (pointer : ram 0 = .ofNat 16 base)
    (above : Limits.variableBase + args ≤ base) (room : base + 5 < cells) :
    ∃ m, Runs rom ⟨ram, a, d, pc⟩ m ∧ m.pc = target ∧
      Entered ram m.ram base args (pc + 47) := by
  rw [callCode_eq, loaded_append] at loaded
  obtain ⟨front, back⟩ := loaded
  have size : Instruction.size (enterCode returnLabel name args) = 46 := rfl
  rw [size] at back
  have meant : symbols.valueOf? returnLabel = some (pc + 47) :=
    (AssemblySymbols.valueOf?_of_symbol returns).trans back.2.1
  obtain ⟨after, d', entered, followed⟩ := follow?_enterCode (a := a) (d := d) extended meant enters
    next few pointer above room
  have fits : ∀ i ∈ enterCode returnLabel name args, i.Fits symbols := by
    simp only [enterCode, List.forall_mem_cons, List.forall_mem_append]
    exact ⟨Instruction.fits_of_valueOf? (Nat.le_of_lt_succ next) meant, trivial,
      fits_of_fixed extended (by decide +kernel), fits_of_fixed extended (by decide +kernel),
      fits_of_fixed extended (fixed_pointCode few),
      Instruction.fits_of_valueOf? (Nat.le_of_lt_succ reach) enters, nofun⟩
  obtain ⟨runs, finish⟩ := runs_of_follow? fits rfl front followed
  exact ⟨_, runs.trans (runs_jump back rfl reach), rfl, entered⟩

theorem runs_returnCode {registers : List Word} {base args next : Nat}
    (loaded : Loaded rom symbols pc returnCode)
    (framed : InFrame ram (.ofNat 16 next :: registers) base args) (reach : next < Limits.romWords)
    (above : Limits.variableBase + args ≤ base) (room : base + 5 ≤ (ram 0 - 1).toNat)
    (inside : (ram 0 - 1).toNat < cells) :
    ∃ m, Runs rom ⟨ram, a, d, pc⟩ m ∧ m.pc = next ∧
      Returned ram m.ram registers (base - args) (ram (ram 0 - 1)) := by
  rw [returnCode_eq, loaded_append] at loaded
  obtain ⟨front, back⟩ := loaded
  have size : Instruction.size leaveCode = 41 := rfl
  rw [size] at back
  obtain ⟨after, d', returned, followed⟩ := follow?_leaveCode (a := a) (d := d) extended framed
    above room inside
  have fits := fits_of_fixed extended (show leaveCode.all isFixed = true by decide +kernel)
  obtain ⟨runs, finish⟩ := runs_of_follow? fits rfl front followed
  exact ⟨_, runs.trans (runs_jump back rfl reach), rfl, returned⟩

end Run

/-- Where the text of a command stands in a program, the code of the command is loaded. -/
theorem loaded_of_stands {source : List Char} {code : List Instruction} {rom : List Word}
    {w : CodeWriter} {command : VmCommand} {fragment : String} {first last : Nat}
    (read : Instruction.read? source = some code) (loaded : Loaded rom symbols 0 code)
    (accepted : command.Accepted) (readable : ∀ i ∈ w.code command, i.isReadable = true)
    (writes : w.Writes command fragment)
    (stands : Instruction.Stands fragment.toList source first last) :
    last = first + Instruction.size (w.code command) ∧
      Loaded rom symbols first (w.code command) := by
  obtain rfl := writes.eq accepted
  have fragment_read := Instruction.read?_textOf (printable_lines accepted readable)
  rw [instructions_of_lines] at fragment_read
  obtain ⟨front, back, rfl, rfl, finish⟩ :=
    stands.split (Instruction.closed_textOf _) fragment_read read
  rw [loaded_append, loaded_append, Nat.zero_add] at loaded
  exact ⟨finish, loaded.2.1⟩

/-- In a program that is assembled, with the text of a call and the declaration of what it calls: the
call saves the address after its text and its caller's registers and jumps to the declaration. From
every later state in that frame, each text of a return leads back to the end of the call, with the
value on top of the stack in place of the arguments and with the caller's registers. -/
theorem call_returns {source : List Char} {assembly : Assembly} {code : List Instruction}
    (assembled : Assembly.assemble .initial source = (.ok assembly, symbols))
    (read : Instruction.read? source = some code) {w : CodeWriter}
    (caller : ∀ name ∈ w.function?, Instruction.isSymbol name.toList = true)
    {name : String} {args : Nat} (callee : Instruction.isSymbol name.toList = true)
    (few : args + 5 ≤ Limits.address) {calling : String} {start next target : Nat}
    (calls : w.Writes (.call name args) calling)
    (stands : Instruction.Stands calling.toList source start next)
    (declared : Instruction.place? code name = some target)
    (inside : next < Limits.romWords) (reach : target < Limits.romWords) :
    ∃ rom, assembly.rom? = some rom ∧
      ∀ (m : Machine) (base : Nat), m.pc = start → m.ram 0 = .ofNat 16 base →
        Limits.variableBase + args ≤ base → base + 5 < cells →
          (∃ m', Runs rom m m' ∧ m'.pc = target ∧ Entered m.ram m'.ram base args next) ∧
            ∀ (w' : CodeWriter) (returning : String) (first last : Nat),
              w'.Writes .return_ returning →
                Instruction.Stands returning.toList source first last →
                  ∀ later : Machine, later.pc = first →
                    InFrame later.ram (savedFrame m.ram next) base args →
                      base + 5 ≤ (later.ram 0 - 1).toNat → (later.ram 0 - 1).toNat < cells →
                        ∃ m', Runs rom later m' ∧ m'.pc = next ∧
                          Returned later.ram m'.ram [m.ram 1, m.ram 2, m.ram 3, m.ram 4]
                            (base - args) (later.ram (later.ram 0 - 1)) := by
  obtain ⟨program, parsed, rfl⟩ := Instruction.parseProgram_of_read? read
  have encodes := Assembly.encodes_of_assemble parsed assembled
  have extended := encodes.predefined
  obtain ⟨rom, fetched, _, loaded⟩ := loaded_of_encodes encodes
  have returns := isSymbol_returnLabel caller
  have readable : ∀ i ∈ w.code (.call name args), i.isReadable = true :=
    fun i member => readable_of_legal_or_size (legal_or_size_of_callCode args returns callee i member)
  have accepted : (VmCommand.call name args).Accepted := ⟨callee, by omega⟩
  obtain ⟨finish, call⟩ := loaded_of_stands read loaded accepted readable calls stands
  have size : Instruction.size (w.code (.call name args)) = 47 := rfl
  rw [size] at finish
  subst finish
  obtain ⟨found, place⟩ := Option.ite_none_right_eq_some.mp declared
  have enters : symbols.valueOf? name = some target := by
    rw [AssemblySymbols.valueOf?_of_symbol callee,
      AssemblySymbols.place?_of_placed encodes.placed found, Nat.zero_add]
    exact place
  refine ⟨rom, fetched, ?_⟩
  rintro ⟨ram, a, d, pc⟩ base begun pointer above room
  obtain rfl : pc = start := begun
  refine ⟨runs_callCode extended returns enters call inside reach few pointer above room, ?_⟩
  rintro w' returning first last writes among ⟨later, a', d', pc'⟩ begun framed high low
  obtain rfl : pc' = first := begun
  have accepted : VmCommand.return_.Accepted := trivial
  have readable : ∀ i ∈ w'.code .return_, i.isReadable = true :=
    fun i member => Instruction.isReadable_of_legal (legal_returnCode i member)
  obtain ⟨_, back⟩ := loaded_of_stands read loaded accepted readable writes among
  exact runs_returnCode extended back framed inside above high low

theorem call_returns_without_arguments :
    let w : CodeWriter := { annotate := true, module := "Main", function? := some "Main.main" }
    let lines := w.lines (.function "Main.f" 0) ++ (w.lines .return_ ++ w.lines (.call "Main.f" 0))
    let ram : Word → Word := fun cell => if cell = 0 then 300 else cell
    ∃ assembly symbols rom m m', Assembly.assemble .initial (textOf lines).toList =
        (.ok assembly, symbols) ∧ assembly.rom? = some rom ∧ Runs rom ⟨ram, 7, 9, 42⟩ m ∧
      m.pc = 0 ∧ m.ram 300 = 89 ∧ m.ram 304 = 4 ∧
        Runs rom ⟨update (update m.ram 305 1234) 0 306, 7, 9, 0⟩ m' ∧
          m'.pc = 89 ∧ m'.ram 0 = 301 ∧ m'.ram 300 = 1234 ∧ m'.ram 4 = 4 := by
  intro w lines ram
  have printable : ∀ line ∈ lines, line.isPrintable = true := by decide +kernel
  have read := Instruction.read?_textOf printable
  have labels : (lines.filterMap AssemblyLine.instruction?).filterMap Instruction.declared? =
      ["Main.f", "Main.main$ret.0"] := by decide +kernel
  have new (name : String) (declared : .label name ∈ lines.filterMap AssemblyLine.instruction?) :
      AssemblySymbols.initial.bindings[name]? = none := by
    have among : name ∈ (lines.filterMap AssemblyLine.instruction?).filterMap
        Instruction.declared? := List.mem_filterMap.mpr ⟨_, declared, rfl⟩
    rw [labels] at among
    have marked : ∀ name ∈ ["Main.f", "Main.main$ret.0"], '.' ∈ name.toList := by decide
    exact AssemblySymbols.unbound_of_mark (marked name among) (by decide)
  obtain ⟨assembly, symbols, _, assembled, _⟩ :=
    exists_loaded printable (by decide +kernel) new (by rw [labels]; decide) (by decide +kernel)
  have calls : w.Writes (.call "Main.f" 0) (textOf (w.lines (.call "Main.f" 0))) :=
    writes_lines w ⟨by decide, by decide⟩
  have returns : w.Writes .return_ (textOf (w.lines .return_)) := writes_lines w trivial
  have call : Instruction.Stands (textOf (w.lines (.call "Main.f" 0))).toList
      (textOf lines).toList 42 89 :=
    Instruction.stands_textOf (w.lines (.function "Main.f" 0) ++ w.lines .return_) _ []
      (by decide +kernel)
  have back : Instruction.Stands (textOf (w.lines .return_)).toList (textOf lines).toList 0 42 :=
    Instruction.stands_textOf (w.lines (.function "Main.f" 0)) _ _ (by decide +kernel)
  obtain ⟨rom, fetched, runs⟩ := call_returns assembled read (by decide) (by decide) (by decide)
    calls call (show _ = some 0 by decide +kernel) (by decide) (by decide)
  obtain ⟨⟨m, entering, entry, entered⟩, returning⟩ :=
    runs ⟨ram, 7, 9, 42⟩ 300 rfl rfl (by decide) (by decide)
  have pointer : update (update m.ram 305 1234) 0 306 0 - 1 = (305 : Word) := by
    rw [Function.update_self]
    rfl
  have framed : InFrame (update (update m.ram 305 1234) 0 306) (savedFrame ram 89) 300 0 := by
    refine entered.toInFrame.of_kept ?_ ?_ fun address low high => ?_
    · rw [Function.update_of_ne (by decide), Function.update_of_ne (by decide)]
    · rw [Function.update_of_ne (by decide), Function.update_of_ne (by decide)]
    · have size : cells = 32768 := rfl
      have top : BitVec.ofNat 16 address ≠ 305 :=
        Word.ofNat_ne (y := 305) (by omega) (by decide) (by omega)
      have first : BitVec.ofNat 16 address ≠ 0 :=
        Word.ofNat_ne (y := 0) (by omega) (by decide) (by omega)
      rw [Function.update_of_ne first, Function.update_of_ne top]
  obtain ⟨m', leaving, left, returned⟩ := returning w _ 0 42 returns back
    ⟨update (update m.ram 305 1234) 0 306, 7, 9, 0⟩ rfl framed (by rw [pointer]; decide)
    (by rw [pointer]; decide)
  have saved := congrArg (fun cells => cells[4]?) entered.frame
  have restored := congrArg (fun cells => cells[3]?) returned.registers
  refine ⟨assembly, symbols, rom, m, m', assembled, fetched, entering, entry,
    (List.cons.inj entered.frame).1, Option.some.inj saved, leaving, left, returned.sp, ?_,
    Option.some.inj restored⟩
  have value : update (update m.ram 305 1234) 0 306 305 = (1234 : Word) := by
    rw [Function.update_of_ne (by decide), Function.update_self]
  refine returned.value.trans ?_
  rw [pointer]
  exact value

end CodeWriter

end NandTools
