import NandTools.Proofs.Vm.Legal

/-! The code of a command of memory or arithmetic does what the command means. -/
namespace NandTools.CodeWriter

open Function (update)
open Machine

variable {rom : List Word} {symbols : AssemblySymbols} {ram : Word → Word} {a d : Word} {pc : Nat}

private theorem straight_of_plain {code : List Instruction} (each : code.all plain = true) :
    code.all Instruction.isStraight = true := by
  refine List.all_eq_true.mpr fun i member => ?_
  have both := List.all_eq_true.mp each i member
  simp only [plain, Bool.and_eq_true] at both
  exact both.1.2

/-- The difference of two values is zero when they are equal. -/
theorem taken_jeq (x y : Word) : Mnemonic.taken "JEQ" (x - y) = decide (x = y) := by
  have zero : (x - y).toInt = 0 ↔ x = y := by
    have none : (0#16).toInt = 0 := rfl
    rw [← none, BitVec.toInt_inj]
    constructor <;> intro <;> bv_omega
  exact decide_eq_decide.mpr zero

/-- The labels of a comparison are new. -/
theorem new_compare {name jump : String} {number : Nat} {declared : String}
    (member : .label declared ∈ compare name jump number) :
    AssemblySymbols.initial.bindings[declared]? = none := by
  have among : declared ∈ (compare name jump number).filterMap Instruction.declared? :=
    List.mem_filterMap.mpr ⟨_, member, rfl⟩
  obtain ⟨kind, _, chars⟩ := toList_outcome among
  have marked : '_' ∈ declared.toList := by
    rw [chars]
    exact List.mem_append_right _ List.mem_cons_self
  exact AssemblySymbols.unbound_of_mark marked (by decide)

section Listing

variable {w : CodeWriter} {command : VmCommand}
  (named : Instruction.isSymbol w.module.toList = true) (accepted : command.Accepted)
  (elementary : command.isElementary = true)
include named accepted elementary

/-- Only a comparison has labels and jumps. -/
theorem plain_or_compare : (w.code command).all plain = true ∨
    w.code command = compare "EQ" "JEQ" w.comparisons := by
  cases command with
  | push segment index => exact .inl (plain_pushCode named accepted)
  | pop segment index => exact .inl (plain_popCode named accepted.2 accepted.1)
  | arithmetic operation =>
    cases operation with
    | eq => exact .inr rfl
    | gt | lt => cases elementary
    | _ => exact .inl rfl
  | _ => cases elementary

theorem legal_code : (w.code command).all Instruction.isLegal = true := by
  rcases plain_or_compare named accepted elementary with each | code
  · exact legal_of_plain each
  · rw [code]
    exact legal_compare (by decide) (by decide) w.comparisons

theorem new_code {name : String} (member : .label name ∈ w.code command) :
    AssemblySymbols.initial.bindings[name]? = none := by
  rcases plain_or_compare named accepted elementary with each | code
  · have both := List.all_eq_true.mp each _ member
    simp [plain, Instruction.isLabel] at both
  · rw [code] at member
    exact new_compare member

theorem nodup_code : ((w.code command).filterMap Instruction.declared?).Nodup := by
  rcases plain_or_compare named accepted elementary with each | code
  · have none : (w.code command).filterMap Instruction.declared? = [] := by
      refine List.filterMap_eq_nil_iff.mpr fun i member => ?_
      have both := List.all_eq_true.mp each i member
      simp only [plain, Bool.and_eq_true, Bool.not_eq_true'] at both
      exact Instruction.declared?_eq_none both.2
    rw [none]
    exact List.nodup_nil
  · rw [code]
    exact nodup_outcomes "EQ" w.comparisons

omit named accepted in
theorem length_code_le : (w.code command).length ≤ 17 := by
  cases command with
  | push segment index =>
    cases segment <;>
      simp only [code, pushCode, Segment.base?, pushD, List.length_append, List.length_cons,
        List.length_nil] <;>
      (try split) <;> simp
  | pop segment index =>
    cases segment <;>
      simp only [code, popCode, Segment.base?, popToD, List.length_append, List.length_cons,
        List.length_nil] <;>
      (try split) <;> simp
  | arithmetic operation => cases operation <;> exact Nat.le_of_ble_eq_true rfl
  | _ => cases elementary

end Listing

section Cells

variable {w : CodeWriter} {assembly : Assembly} {segment : Segment} {index : Nat}
  (named : Instruction.isSymbol w.module.toList = true)
include named

/-- A static that is used has a cell. -/
private theorem exists_static {code : List Instruction} (encodes : assembly.Encodes symbols code)
    (each : code.all plain = true) (used : .address s!"{w.module}.{index}" ∈ code) :
    ∃ cell, statics symbols w.module index = some cell := by
  have marked : '.' ∈ (s!"{w.module}.{index}").toList := by
    rw [toList_static]
    exact List.mem_append_right _ List.mem_cons_self
  have undeclared : .label s!"{w.module}.{index}" ∉ code := by
    intro member
    have both := List.all_eq_true.mp each _ member
    simp [plain, Instruction.isLabel] at both
  obtain ⟨address, allocated⟩ := encodes.cell (isSymbol_static named index) used
    (AssemblySymbols.unbound_of_mark marked (by decide)) undeclared
  exact ⟨.ofNat 16 address, congrArg (Option.map (BitVec.ofNat 16)) allocated⟩

/-- Every command of memory or arithmetic means something once it is assembled. -/
theorem exists_meaning {command : VmCommand} (accepted : command.Accepted)
    (elementary : command.isElementary = true)
    (encodes : assembly.Encodes symbols (w.code command)) (ram : Word → Word) :
    ∃ after, command.meaning? (statics symbols w.module) ram = some after := by
  cases command with
  | push segment index =>
    by_cases constant : segment = .constant
    · subst constant
      exact ⟨_, rfl⟩
    · have cell : ∃ cell, segment.cell? (statics symbols w.module) ram index = some cell := by
        refine Segment.exists_cell constant (fun static => ?_) ram
        subst static
        refine exists_static named encodes (plain_pushCode named accepted) ?_
        exact List.mem_cons_self
      obtain ⟨cell, found⟩ := cell
      rw [VmCommand.meaning?, Segment.value?_of_ne constant, found]
      exact ⟨_, rfl⟩
  | pop segment index =>
    have cell : ∃ cell, segment.cell? (statics symbols w.module) ram index = some cell := by
      refine Segment.exists_cell accepted.1 (fun static => ?_) ram
      subst static
      refine exists_static named encodes (plain_popCode named accepted.2 accepted.1) ?_
      exact List.mem_append_right popToD List.mem_cons_self
    obtain ⟨cell, found⟩ := cell
    rw [VmCommand.meaning?, found]
    exact ⟨_, rfl⟩
  | arithmetic operation => exact ⟨_, rfl⟩
  | _ => cases elementary

end Cells

/-- Wherever the code of a command is loaded, it does what the command means and runs to its end. -/
theorem runs_code {w : CodeWriter} {command : VmCommand} {after : Word → Word}
    (extended : AssemblySymbols.initial.Extends symbols) (bounded : symbols.Bounded)
    (named : Instruction.isSymbol w.module.toList = true) (accepted : command.Accepted)
    (elementary : command.isElementary = true)
    (meant : command.meaning? (statics symbols w.module) ram = some after)
    (ordinary : ∀ cell ∈ command.touched ram, cell.Ordinary)
    (loaded : Loaded rom symbols pc (w.code command)) :
    ∃ m, Runs rom ⟨ram, a, d, pc⟩ m ∧ m.pc = pc + Instruction.size (w.code command) ∧
      ∀ cell, cell ∉ command.scratch → m.ram cell = after cell := by
  cases command with
  | push segment index =>
    obtain ⟨value, valued, rfl⟩ := Option.map_eq_some_iff.mp meant
    obtain ⟨m, followed, result⟩ := follow?_pushCode extended bounded named accepted valued
      (ordinary _ List.mem_cons_self)
      fun cell found => ordinary cell (List.mem_cons_of_mem _ (Option.mem_toList.mpr found))
    obtain ⟨runs, finish⟩ := runs_of_follow? (fun i _ => bounded.fits i)
      (straight_of_plain (plain_pushCode named accepted)) loaded followed
    exact ⟨m, runs, finish, fun cell _ => congrFun result cell⟩
  | pop segment index =>
    obtain ⟨cell, found, rfl⟩ := Option.map_eq_some_iff.mp meant
    obtain ⟨m, followed, result⟩ := follow?_popCode extended bounded named accepted.2 found
      (ordinary _ (List.mem_cons_of_mem _ List.mem_cons_self))
      fun cell found => ordinary cell
        (List.mem_cons_of_mem _ (List.mem_cons_of_mem _ (Option.mem_toList.mpr found)))
    obtain ⟨runs, finish⟩ := runs_of_follow? (fun i _ => bounded.fits i)
      (straight_of_plain (plain_popCode named accepted.2 accepted.1)) loaded followed
    exact ⟨m, runs, finish, fun cell unkept => result cell (by simpa [VmCommand.scratch] using unkept)⟩
  | arithmetic operation =>
    cases meant
    by_cases equality : operation = .eq
    · subst equality
      have fits : "EQ".toList.all Instruction.isSymbolChar = true := by decide
      obtain ⟨yes, done⟩ := isSymbol_compare fits w.comparisons
      obtain ⟨m, runs, finish, result⟩ := runs_compare (a := a) (d := d) extended bounded yes done
        loaded (VmCommand.ordinary_top ordinary) (VmCommand.ordinary_below ordinary rfl)
      rw [taken_jeq] at result
      exact ⟨m, runs, finish, fun cell _ => congrFun result cell⟩
    · have straight : operation ∉ [.eq, .gt, .lt] := by
        cases operation with
        | eq => exact absurd rfl equality
        | gt | lt => cases elementary
        | _ => decide
      obtain ⟨m, followed, result⟩ :=
        follow?_operationCode extended straight ordinary w.comparisons
      obtain ⟨runs, finish⟩ := runs_of_follow? (fun i _ => bounded.fits i)
        (straight_of_plain (plain_operationCode straight w.comparisons)) loaded followed
      exact ⟨m, runs, finish, fun cell _ => congrFun result cell⟩
  | _ => cases elementary

/-- A command of memory or arithmetic that is read from a line is written after what was written
before. Assembled by itself, what is written loads; from its first instruction on it runs to its
end, and then the data memory is what the command means, but for the register that a pop uses. -/
theorem write_refines (w : CodeWriter) (named : Instruction.isSymbol w.module.toList = true)
    {raw : List Char} {number : Nat} {command : VmCommand}
    (parsed : VmCommand.parseLine raw number = .ok (some command))
    (elementary : command.isElementary = true) (line : Nat) :
    ∃ w' fragment assembly symbols rom,
      w.write command line = (.ok (), w') ∧ w'.text = w.text ++ fragment ∧
        Assembly.assemble .initial fragment.toList = (.ok assembly, symbols) ∧
          assembly.rom? = some rom ∧
            ∀ m : Machine, m.pc = 0 → (∀ cell ∈ command.touched m.ram, cell.Ordinary) →
              ∃ after m', command.meaning? (statics symbols w.module) m.ram = some after ∧
                Runs rom m m' ∧ m'.pc = rom.length ∧
                  ∀ cell, cell ∉ command.scratch → m'.ram cell = after cell := by
  have accepted := VmCommand.accepted_of_parseLine parsed
  obtain ⟨w', written, text⟩ := write_ok w accepted line
  have code := instructions_of_lines w command
  have short : (w.lines command).length ≤ Limits.screen - Limits.variableBase := by
    have few : (w.code command).length ≤ 17 := length_code_le elementary
    have more := length_lines_le w command
    rw [Limits.screen, Limits.variableBase]
    omega
  have legal := List.all_eq_true.mp (legal_code named accepted elementary)
  have printable := printable_lines accepted fun i member =>
    Instruction.isReadable_of_legal (legal i member)
  have listed := exists_loaded printable (by rwa [code])
    (by rw [code]; exact fun name => new_code named accepted elementary)
    (by rw [code]; exact nodup_code named accepted elementary) short
  rw [code] at listed
  obtain ⟨assembly, symbols, rom, assembled, read, encodes, bounded, length, loaded⟩ := listed
  refine ⟨w', textOf (w.lines command), assembly, symbols, rom, written, text, assembled, read, ?_⟩
  rintro ⟨ram, a, d, pc⟩ start ordinary
  obtain rfl : pc = 0 := start
  obtain ⟨after, meant⟩ := exists_meaning named accepted elementary encodes ram
  obtain ⟨m', runs, finish, result⟩ := runs_code (a := a) (d := d) encodes.predefined bounded named
    accepted elementary meant ordinary loaded
  refine ⟨after, m', meant, runs, ?_, result⟩
  rw [finish, length, Nat.zero_add]

theorem write_refines_pop_local :
    let w : CodeWriter := { annotate := true, module := "Main", comparisons := 3 }
    let ram : Word → Word := fun cell => if cell = 0 then 258 else if cell = 1 then 300 else cell
    ∃ fragment assembly symbols rom m', (w.write (.pop .local_ 2) 1).2.text = fragment ∧
      Assembly.assemble .initial fragment.toList = (.ok assembly, symbols) ∧
        assembly.rom? = some rom ∧ Runs rom ⟨ram, 7, 9, 0⟩ m' ∧ m'.pc = rom.length ∧
          m'.ram 0 = 257 ∧ m'.ram 302 = 257 := by
  intro w ram
  have parsed : VmCommand.parseLine "pop local 2 // x".toList 1 =
      .ok (some (.pop .local_ 2)) := by rfl
  obtain ⟨w', fragment, assembly, symbols, rom, written, text, assembled, read, runs⟩ :=
    write_refines w (by decide) parsed rfl 1
  have ordinary : ∀ cell ∈ (VmCommand.pop .local_ 2).touched ram, cell.Ordinary := by
    simp [VmCommand.touched, Segment.based?, Segment.register?, ram, Word.Ordinary,
      Limits.variableBase, Limits.screen]
  obtain ⟨after, m', meant, ran, finish, result⟩ := runs ⟨ram, 7, 9, 0⟩ rfl ordinary
  cases meant
  refine ⟨fragment, assembly, symbols, rom, m', ?_, assembled, read, ran, finish, ?_, ?_⟩
  · rw [written, text]
    rfl
  · rw [result 0 (by decide)]
    simp [ram]
  · rw [result 302 (by decide)]
    simp [ram]

end NandTools.CodeWriter
