import NandTools.Proofs.Assembly.Encoding
import NandTools.Proofs.Machine.Computation
import NandTools.Proofs.Outcome

/-! Instructions that are executed where they are loaded. -/
namespace NandTools

/-- Whether an instruction goes on to the next one. -/
def Instruction.isStraight : Instruction → Bool
  | compute _ _ jump => jump == ""
  | _ => true

/-- Whether the address that an instruction loads can be written into it. -/
def Instruction.Fits (symbols : AssemblySymbols) : Instruction → Prop
  | address value => ∀ address, symbols.valueOf? value = some address → address ≤ Limits.address
  | _ => True

theorem Instruction.fits_of_valueOf? {symbols : AssemblySymbols} {value : String} {address : Nat}
    (small : address ≤ Limits.address) (meant : symbols.valueOf? value = some address) :
    (Instruction.address value).Fits symbols := by
  intro other found
  rw [meant] at found
  cases found
  exact small

theorem AssemblySymbols.Bounded.fits {symbols : AssemblySymbols} (bounded : symbols.Bounded)
    (i : Instruction) : i.Fits symbols := by
  cases i with
  | label name => trivial
  | address value => exact fun _ meant => bounded.valueOf?_le meant
  | compute dest comp jump => trivial

namespace Assembly

/-- The word of an instruction in the program memory. -/
def loaded? (symbols : AssemblySymbols) (i : Instruction) : Option Word :=
  (wordOf? symbols i).bind Word.ofText?

theorem loaded?_address {symbols : AssemblySymbols} {value : String} {address : Nat}
    (small : address ≤ Limits.address) (meant : symbols.valueOf? value = some address) :
    ∃ word, loaded? symbols (.address value) = some word ∧ ∀ m : Machine,
      m.execute? word = some { m with a := .ofNat 16 address, pc := m.pc + 1 } := by
  obtain ⟨word, read, executed⟩ := execute_addressWord small
  refine ⟨word, ?_, executed⟩
  rw [loaded?, wordOf?, meant]
  exact read

/-- Everything that is encoded can be loaded. -/
theorem loaded?_of_wordOf? {symbols : AssemblySymbols}
    (reach : symbols.All (·.address ≤ Limits.romWords)) {i : Instruction} {text : String}
    (encoded : wordOf? symbols i = some text) :
    ∃ word, Word.ofText? text = some word := by
  cases i with
  | label name => cases encoded
  | address value =>
    obtain ⟨address, meant, rfl⟩ := Option.map_eq_some_iff.mp encoded
    have most := AssemblySymbols.valueOf?_le (by decide) reach meant
    exact ⟨_, ofText_addressWord (Nat.lt_of_le_of_lt most (by decide))⟩
  | compute dest comp jump =>
    obtain ⟨word, _, read, _⟩ := execute_computeWord (Except.ok_of_toOption encoded)
    exact ⟨word, read⟩

end Assembly

namespace Machine

/-- Code stands in the program memory from `pc` on, and its labels are bound to their places. -/
def Loaded (rom : List Word) (symbols : AssemblySymbols) : Nat → List Instruction → Prop
  | _, [] => True
  | pc, .label name :: rest => symbols.get? name = some pc ∧ Loaded rom symbols pc rest
  | pc, i :: rest =>
    (∃ word, rom[pc]? = some word ∧ Assembly.loaded? symbols i = some word) ∧
      Loaded rom symbols (pc + 1) rest

variable {rom : List Word} {symbols : AssemblySymbols}

theorem loaded_other {i : Instruction} (other : i.isLabel = false) (pc : Nat)
    (rest : List Instruction) : Loaded rom symbols pc (i :: rest) ↔
      (∃ word, rom[pc]? = some word ∧ Assembly.loaded? symbols i = some word) ∧
        Loaded rom symbols (pc + 1) rest := by
  cases i with
  | label name => cases other
  | address value => rfl
  | compute dest comp jump => rfl

theorem loaded_append {pc : Nat} {front back : List Instruction} :
    Loaded rom symbols pc (front ++ back) ↔
      Loaded rom symbols pc front ∧ Loaded rom symbols (pc + Instruction.size front) back := by
  induction front generalizing pc with
  | nil => exact (true_and _).symm.to_iff
  | cons i rest ih =>
    rcases i.label_or with ⟨name, rfl⟩ | other
    · exact (and_congr_right' ih).trans (and_assoc).symm
    · rw [List.cons_append, loaded_other other, loaded_other other, ih, and_assoc,
        Instruction.size_other other, Nat.add_right_comm, Nat.add_assoc]

private theorem loaded_of_placed {code : List Instruction} {before words : List Word}
    (placed : symbols.Placed before.length code)
    (each : (Instruction.encoded code).map (Assembly.loaded? symbols) = words.map some) :
    Loaded (before ++ words) symbols before.length code := by
  induction code generalizing before words with
  | nil => trivial
  | cons i rest ih =>
    rcases i.label_or with ⟨name, rfl⟩ | other
    · exact ⟨placed.1, ih placed.2 each⟩
    · rw [Instruction.encoded, List.filter_cons_of_pos (by simp [other])] at each
      rw [AssemblySymbols.placed_other other] at placed
      cases words with
      | nil => cases each
      | cons word words =>
        obtain ⟨first, each⟩ := List.cons_eq_cons.mp each
        rw [loaded_other other]
        refine ⟨⟨word, by simp, first⟩, ?_⟩
        have later : symbols.Placed (before ++ [word]).length rest := by simpa using placed
        simpa using ih later each

private theorem mapM_eq_some {texts : List String} {words : List Word}
    (each : texts.map Word.ofText? = words.map some) : texts.mapM Word.ofText? = some words := by
  induction texts generalizing words with
  | nil =>
    cases words with
    | nil => rfl
    | cons word words => cases each
  | cons text texts ih =>
    cases words with
    | nil => cases each
    | cons word words =>
      obtain ⟨first, each⟩ := List.cons_eq_cons.mp each
      rw [List.mapM_cons, first, ih each]
      rfl

private theorem exists_words {code : List Instruction} {texts : List String}
    (reach : symbols.All (·.address ≤ Limits.romWords))
    (encoded : code.map (Assembly.wordOf? symbols) = texts.map some) :
    ∃ words : List Word, texts.map Word.ofText? = words.map some ∧
      code.map (Assembly.loaded? symbols) = words.map some := by
  induction code generalizing texts with
  | nil =>
    cases texts with
    | nil => exact ⟨[], rfl, rfl⟩
    | cons text texts => cases encoded
  | cons i rest ih =>
    cases texts with
    | nil => cases encoded
    | cons text texts =>
      obtain ⟨first, encoded⟩ := List.cons_eq_cons.mp encoded
      obtain ⟨words, read, each⟩ := ih encoded
      obtain ⟨word, legible⟩ := Assembly.loaded?_of_wordOf? reach first
      refine ⟨word :: words, List.cons_eq_cons.mpr ⟨legible, read⟩,
        List.cons_eq_cons.mpr ⟨?_, each⟩⟩
      rw [Assembly.loaded?, first]
      exact legible

/-- Assembled programs are loaded. -/
theorem loaded_of_encodes {assembly : Assembly} {code : List Instruction}
    (encodes : assembly.Encodes symbols code) :
    ∃ rom, assembly.rom? = some rom ∧ rom.length = Instruction.size code ∧
      Loaded rom symbols 0 code := by
  obtain ⟨words, read, each⟩ := exists_words encodes.reach encodes.words
  have placed : symbols.Placed ([] : List Word).length code := encodes.placed
  refine ⟨words, mapM_eq_some read, ?_, loaded_of_placed placed each⟩
  simpa [Instruction.size] using (congrArg List.length each).symm

/-- What a computing instruction does when its parts can be read. -/
def compute? (m : Machine) (dest comp jump : String) : Option Machine :=
  match Mnemonic.Dest.ofList? dest.toList, Mnemonic.value? m.a m.d (m.ram m.a) comp with
  | some target, some out => some (m.settle target out (Mnemonic.taken jump out))
  | _, _ => none

/-- Execute an instruction when its symbol is bound. A label is passed. -/
def perform? (m : Machine) (symbols : AssemblySymbols) : Instruction → Option Machine
  | .label _ => some m
  | .address value => (symbols.valueOf? value).map fun address =>
    { m with a := .ofNat 16 address, pc := m.pc + 1 }
  | .compute dest comp jump => if cells ≤ m.a.toNat then none else m.compute? dest comp jump

theorem step?_of_perform? {m m' : Machine} {i : Instruction} {rest : List Instruction}
    (fits : i.Fits symbols) (other : i.isLabel = false)
    (loaded : Loaded rom symbols m.pc (i :: rest)) (performed : m.perform? symbols i = some m') :
    m.step? rom = some m' := by
  obtain ⟨⟨word, fetched, loaded⟩, _⟩ := (loaded_other other m.pc rest).mp loaded
  rw [step?, fetched, Option.bind_some]
  cases i with
  | label name => cases other
  | address value =>
    obtain ⟨address, meant, rfl⟩ := Option.map_eq_some_iff.mp performed
    obtain ⟨same, found, executed⟩ := Assembly.loaded?_address (fits address meant) meant
    rw [Option.some.inj (loaded.symm.trans found), executed]
  | compute dest comp jump =>
    obtain ⟨text, computed, read⟩ := Option.bind_eq_some_iff.mp loaded
    obtain ⟨same, target, found, parsed, executed⟩ :=
      Assembly.execute_computeWord (Except.ok_of_toOption computed)
    rw [perform?] at performed
    split at performed
    · cases performed
    · next inside =>
      obtain ⟨out, value, executed⟩ := executed m (Nat.lt_of_not_le inside)
      rw [compute?, parsed, value] at performed
      cases performed
      rw [Option.some.inj (read.symm.trans found), executed]

private theorem pc_of_perform? {m m' : Machine} {i : Instruction} (other : i.isLabel = false)
    (straight : i.isStraight = true) (performed : m.perform? symbols i = some m') :
    m'.pc = m.pc + 1 := by
  cases i with
  | label name => cases other
  | address value =>
    obtain ⟨address, _, rfl⟩ := Option.map_eq_some_iff.mp performed
    rfl
  | compute dest comp jump =>
    obtain rfl : jump = "" := eq_of_beq straight
    rw [perform?] at performed
    split at performed
    · cases performed
    · rw [compute?] at performed
      split at performed
      · cases performed
        rfl
      · cases performed

/-- Execute instructions one after the other, wherever they are loaded. -/
def follow? (symbols : AssemblySymbols) (m : Machine) (code : List Instruction) : Option Machine :=
  code.foldlM (perform? · symbols) m

section Follow

variable {m : Machine} {rest : List Instruction}

theorem follow?_address {value : String} {address : Nat}
    (meant : symbols.valueOf? value = some address) :
    follow? symbols m (.address value :: rest) =
      follow? symbols ⟨m.ram, .ofNat 16 address, m.d, m.pc + 1⟩ rest := by
  have performed : m.perform? symbols (.address value) =
      some ⟨m.ram, .ofNat 16 address, m.d, m.pc + 1⟩ := by
    rw [perform?, meant]
    rfl
  exact (congrArg (Option.bind · (follow? symbols · rest)) performed)

theorem follow?_compute {m' : Machine} {dest comp : String} (inside : m.a.toNat < cells)
    (computed : m.compute? dest comp "" = some m') :
    follow? symbols m (.compute dest comp "" :: rest) = follow? symbols m' rest := by
  have performed : m.perform? symbols (.compute dest comp "") = some m' := by
    rw [perform?, if_neg (Nat.not_le_of_lt inside), computed]
  exact (congrArg (Option.bind · (follow? symbols · rest)) performed)

theorem perform?_jump {comp jump : String} {out : Word} (inside : m.a.toNat < cells)
    (value : Mnemonic.value? m.a m.d (m.ram m.a) comp = some out) :
    m.perform? symbols (.compute "" comp jump) =
      some ⟨m.ram, m.a, m.d, if Mnemonic.taken jump out then m.a.toNat else m.pc + 1⟩ := by
  rw [perform?, if_neg (Nat.not_le_of_lt inside), compute?, value]
  rfl

end Follow

/-- Code that is followed without a jump is run through. -/
theorem runs_of_follow? {m m' : Machine} {code : List Instruction}
    (fits : ∀ i ∈ code, i.Fits symbols) (straight : code.all Instruction.isStraight = true)
    (loaded : Loaded rom symbols m.pc code) (followed : follow? symbols m code = some m') :
    Runs rom m m' ∧ m'.pc = m.pc + Instruction.size code := by
  induction code generalizing m with
  | nil =>
    cases followed
    exact ⟨.refl, rfl⟩
  | cons i rest ih =>
    obtain ⟨next, performed, followed⟩ := Option.bind_eq_some_iff.mp followed
    rw [List.all_cons, Bool.and_eq_true] at straight
    have later : ∀ i ∈ rest, i.Fits symbols :=
      fun other member => fits other (List.mem_cons_of_mem i member)
    rcases i.label_or with ⟨name, rfl⟩ | other
    · cases performed
      exact ih later straight.2 loaded.2 followed
    · have passed := pc_of_perform? other straight.1 performed
      obtain ⟨_, back⟩ := (loaded_other other m.pc rest).mp loaded
      obtain ⟨runs, finish⟩ := ih later straight.2 (passed ▸ back) followed
      have stepped := step?_of_perform? (fits i List.mem_cons_self) other loaded performed
      refine ⟨.head stepped runs, ?_⟩
      rw [finish, passed, Instruction.size_other other, Nat.add_assoc, Nat.add_comm 1]

end Machine

end NandTools
