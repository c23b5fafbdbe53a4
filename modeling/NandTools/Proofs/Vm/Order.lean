import NandTools.Proofs.Vm.Refinement

/-! The comparisons of order look at the sign of a difference. They order two values as signed
numbers, unless the difference leaves the range of a word; then its sign is the wrong one. -/
namespace NandTools

open Function (update)

namespace Word

theorem not_truth (holds : Bool) : ~~~truth holds = truth !holds := by
  cases holds <;> rfl

/-- The sign of a difference that overflows is that of the difference taken the other way. -/
theorem sign_sub_cases (x y : Word) :
    x.ssubOverflow y = false ∧ (x - y).toInt = x.toInt - y.toInt ∨
      x.ssubOverflow y = true ∧
        (y.toInt < x.toInt ∧ (x - y).toInt < 0 ∨ x.toInt < y.toInt ∧ 0 < (x - y).toInt) := by
  cases overflow : x.ssubOverflow y with
  | false => exact .inl ⟨rfl, BitVec.toInt_sub_of_not_ssubOverflow (by simp [overflow])⟩
  | true =>
    refine .inr ⟨rfl, ?_⟩
    simp only [BitVec.ssubOverflow, Bool.or_eq_true, decide_eq_true_eq] at overflow
    have leastX := BitVec.le_toInt x
    have mostX := BitVec.toInt_lt (x := x)
    have leastY := BitVec.le_toInt y
    have mostY := BitVec.toInt_lt (x := y)
    have wrapped : (x - y).toInt = (x.toInt - y.toInt).bmod 65536 := BitVec.toInt_sub
    rw [wrapped, Int.bmod_def]
    split <;> omega

end Word

namespace Operation

/-- The comparisons of order, each with the name in its labels and its jump. -/
def orders : List (Operation × String × String) := [(gt, "GT", "JGT"), (lt, "LT", "JLT")]

/-- What the sign of the difference of two values tells of their order. -/
def bySign (operation : Operation) (x y : Word) : Word :=
  if x.ssubOverflow y then ~~~operation.result x y else operation.result x y

theorem truth_taken {operation : Operation} {name jump : String}
    (ordered : (operation, name, jump) ∈ orders) (x y : Word) :
    Word.truth (Mnemonic.taken jump (x - y)) = operation.bySign x y := by
  simp only [orders, List.mem_cons, Prod.mk.injEq, List.not_mem_nil, or_false] at ordered
  rw [bySign]
  rcases ordered with ⟨rfl, rfl, rfl⟩ | ⟨rfl, rfl, rfl⟩
  all_goals
    rw [result, Word.not_truth, Mnemonic.taken, ← apply_ite Word.truth]
    congr 1
    rcases Word.sign_sub_cases x y with ⟨fits, sign⟩ |
      ⟨overflow, ⟨order, sign⟩ | ⟨order, sign⟩⟩
    · rw [if_neg (by simp [fits]), sign]
      exact decide_eq_decide.mpr (by omega)
    all_goals
      rw [if_pos overflow, ← decide_not]
      exact decide_eq_decide.mpr (by omega)

theorem bySign_eq_result_iff (operation : Operation) (x y : Word) :
    operation.bySign x y = operation.result x y ↔ x.ssubOverflow y = false := by
  rw [bySign]
  split
  · next overflow => simp [overflow]
  · next fits => simp [fits]

/-- The data memory after a comparison that takes the sign of the difference for the order. -/
def applyBySign (ram : Word → Word) (operation : Operation) : Word → Word :=
  update (update ram (ram 0 - 2) (operation.bySign (ram (ram 0 - 2)) (ram (ram 0 - 1)))) 0
    (ram 0 - 1)

/-- Only in the cell of the outcome does that make a difference. -/
theorem applyBySign_eq_apply_iff {operation : Operation} (binary : operation.isUnary = false)
    {ram : Word → Word} (below : (ram 0 - 2).Ordinary) :
    operation.applyBySign ram = operation.apply ram ↔
      (ram (ram 0 - 2)).ssubOverflow (ram (ram 0 - 1)) = false := by
  have apart : ram 0 - 2 ≠ 0 := below.ne (by decide)
  rw [← bySign_eq_result_iff operation, applyBySign, apply, binary, if_neg Bool.false_ne_true]
  constructor
  · intro same
    have outcome := congrFun same (ram 0 - 2)
    rwa [Function.update_of_ne apart, Function.update_of_ne apart, Function.update_self,
      Function.update_self] at outcome
  · intro same
    rw [same]

end Operation

namespace CodeWriter

open Machine

section Orders

variable {operation : Operation} {name jump : String}
  (ordered : (operation, name, jump) ∈ Operation.orders)
include ordered

theorem code_order (w : CodeWriter) :
    w.code (.arithmetic operation) = compare name jump w.comparisons := by
  simp only [Operation.orders, List.mem_cons, Prod.mk.injEq, List.not_mem_nil, or_false] at ordered
  rcases ordered with ⟨rfl, rfl, rfl⟩ | ⟨rfl, rfl, rfl⟩ <;> rfl

private theorem symbolChars_order : name.toList.all Instruction.isSymbolChar = true := by
  have each : ∀ order ∈ Operation.orders,
      order.2.1.toList.all Instruction.isSymbolChar = true := by decide
  exact each _ ordered

/-- The code of a comparison of order is assembled by itself. -/
theorem loaded_order (w : CodeWriter) :
    ∃ assembly symbols rom,
      Assembly.assemble .initial (textOf (w.lines (.arithmetic operation))).toList =
          (.ok assembly, symbols) ∧
        assembly.rom? = some rom ∧ AssemblySymbols.initial.Extends symbols ∧ symbols.Bounded ∧
          rom.length = 15 ∧ Loaded rom symbols 0 (compare name jump w.comparisons) := by
  have jumps : ∀ order ∈ Operation.orders, (Mnemonic.jumpBits? order.2.2).isSome = true := by decide
  have code := code_order ordered w
  have listed := instructions_of_lines w (.arithmetic operation)
  rw [code] at listed
  have legal := List.all_eq_true.mp
    (legal_compare (symbolChars_order ordered) (jumps _ ordered) w.comparisons)
  have accepted : (VmCommand.arithmetic operation).Accepted := trivial
  have printable := printable_lines (w := w) accepted fun i member =>
    Instruction.isReadable_of_legal (legal i (by rwa [code] at member))
  have short := length_lines_le w (.arithmetic operation)
  rw [code] at short
  obtain ⟨assembly, symbols, rom, assembled, read, encodes, bounded, length, loaded⟩ :=
    exists_loaded printable (by rwa [listed]) (by rw [listed]; exact fun _ => new_compare)
      (by rw [listed]; exact nodup_outcomes name w.comparisons)
      (Nat.le_trans short (Nat.le_of_ble_eq_true rfl))
  rw [listed] at length loaded
  exact ⟨assembly, symbols, rom, assembled, read, encodes.predefined, bounded, length, loaded⟩

/-- Wherever it is loaded, it leaves what the sign of the difference tells. -/
theorem runs_order {rom : List Word} {symbols : AssemblySymbols} {ram : Word → Word} {a d : Word}
    {pc number : Nat} (extended : AssemblySymbols.initial.Extends symbols)
    (bounded : symbols.Bounded) (loaded : Loaded rom symbols pc (compare name jump number))
    (top : (ram 0 - 1).Ordinary) (below : (ram 0 - 2).Ordinary) :
    ∃ m, Runs rom ⟨ram, a, d, pc⟩ m ∧ m.pc = pc + 15 ∧ m.ram = operation.applyBySign ram := by
  obtain ⟨yes, done⟩ := isSymbol_compare (symbolChars_order ordered) number
  obtain ⟨m, runs, finish, result⟩ := runs_compare (a := a) (d := d) extended bounded yes done
    loaded top below
  rw [Operation.truth_taken ordered] at result
  exact ⟨m, runs, finish, result⟩

end Orders

/-- A comparison of order is written after what was written before. Assembled by itself, what is
written loads and runs to its end. It takes the two values on top off and leaves minus one where
the order holds and zero where it does not, exactly as long as their difference does not
overflow; where it does, it leaves the opposite. -/
theorem write_order (w : CodeWriter) {operation : Operation}
    (order : operation = .gt ∨ operation = .lt) (line : Nat) :
    ∃ w' fragment assembly symbols rom,
      w.write (.arithmetic operation) line = (.ok (), w') ∧ w'.text = w.text ++ fragment ∧
        Assembly.assemble .initial fragment.toList = (.ok assembly, symbols) ∧
          assembly.rom? = some rom ∧
            ∀ m : Machine, m.pc = 0 →
              (∀ cell ∈ (VmCommand.arithmetic operation).touched m.ram, cell.Ordinary) →
                ∃ m', Runs rom m m' ∧ m'.pc = rom.length ∧
                  m'.ram = operation.applyBySign m.ram ∧
                    (m'.ram = operation.apply m.ram ↔
                      (m.ram (m.ram 0 - 2)).ssubOverflow (m.ram (m.ram 0 - 1)) = false) := by
  obtain ⟨name, jump, ordered⟩ : ∃ name jump, (operation, name, jump) ∈ Operation.orders := by
    rcases order with rfl | rfl
    · exact ⟨"GT", "JGT", by decide⟩
    · exact ⟨"LT", "JLT", by decide⟩
  have binary : operation.isUnary = false := by
    rcases order with rfl | rfl <;> rfl
  have accepted : (VmCommand.arithmetic operation).Accepted := trivial
  obtain ⟨w', written, text⟩ := write_ok w accepted line
  obtain ⟨assembly, symbols, rom, assembled, read, extended, bounded, length, loaded⟩ :=
    loaded_order ordered w
  refine ⟨w', _, assembly, symbols, rom, written, text, assembled, read, ?_⟩
  rintro ⟨ram, a, d, pc⟩ start ordinary
  obtain rfl : pc = 0 := start
  have below := VmCommand.ordinary_below ordinary binary
  obtain ⟨m', runs, finish, result⟩ := runs_order (a := a) (d := d) ordered extended bounded loaded
    (VmCommand.ordinary_top ordinary) below
  refine ⟨m', runs, ?_, result, ?_⟩
  · rw [finish, length]
  · rw [result]
    exact Operation.applyBySign_eq_apply_iff binary below

theorem write_order_of_negative :
    let w : CodeWriter := { annotate := true, function? := some "Main.main", comparisons := 2 }
    let ram : Word → Word := fun cell => if cell = 0 then 258 else if cell = 256 then -3 else 5
    ∃ fragment assembly symbols rom m', (w.write (.arithmetic .lt) 7).2.text = fragment ∧
      Assembly.assemble .initial fragment.toList = (.ok assembly, symbols) ∧
        assembly.rom? = some rom ∧ Runs rom ⟨ram, 0, 0, 0⟩ m' ∧ m'.pc = rom.length ∧
          m'.ram 0 = 257 ∧ m'.ram 256 = -1 := by
  intro w ram
  obtain ⟨w', fragment, assembly, symbols, rom, written, text, assembled, read, runs⟩ :=
    write_order w (.inr (rfl : Operation.lt = .lt)) 7
  have ordinary : ∀ cell ∈ (VmCommand.arithmetic .lt).touched ram, cell.Ordinary := by
    simp [VmCommand.touched, Operation.isUnary, ram, Word.Ordinary, Limits.variableBase,
      Limits.screen]
  obtain ⟨m', ran, finish, -, same⟩ := runs ⟨ram, 0, 0, 0⟩ rfl ordinary
  have result : m'.ram = Operation.lt.apply ram := same.mpr (by decide)
  refine ⟨fragment, assembly, symbols, rom, m', ?_, assembled, read, ran, finish, ?_, ?_⟩
  · rw [written, text]
    rfl
  · rw [result]
    decide
  · rw [result]
    decide

/-- The least number is found to be greater than one. -/
theorem gt_of_least :
    let w : CodeWriter := { annotate := false }
    let ram : Word → Word := fun cell => if cell = 0 then 258 else if cell = 256 then 0x8000 else 1
    (ram 256).toInt < (ram 257).toInt ∧
      ∃ assembly symbols rom m',
        Assembly.assemble .initial (w.write (.arithmetic .gt) 1).2.text.toList =
            (.ok assembly, symbols) ∧
          assembly.rom? = some rom ∧ Runs rom ⟨ram, 0, 0, 0⟩ m' ∧ m'.pc = rom.length ∧
            m'.ram 0 = 257 ∧ m'.ram 256 = -1 := by
  intro w ram
  have ordered : (Operation.gt, "GT", "JGT") ∈ Operation.orders := by decide
  obtain ⟨assembly, symbols, rom, assembled, read, extended, bounded, length, loaded⟩ :=
    loaded_order ordered w
  have top : (ram 0 - 1).Ordinary := by
    simp [ram, Word.Ordinary, Limits.variableBase, Limits.screen]
  have below : (ram 0 - 2).Ordinary := by
    simp [ram, Word.Ordinary, Limits.variableBase, Limits.screen]
  obtain ⟨m', runs, finish, result⟩ := runs_order (a := 0) (d := 0) ordered extended bounded loaded
    top below
  refine ⟨by decide, assembly, symbols, rom, m', assembled, read, runs, ?_, ?_, ?_⟩
  · rw [finish, length]
  · rw [result]
    decide
  · rw [result]
    decide

end CodeWriter

end NandTools
