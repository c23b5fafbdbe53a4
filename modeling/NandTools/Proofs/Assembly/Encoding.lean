import NandTools.Assembly.Program
import NandTools.Proofs.Assembly.Listing
import NandTools.Proofs.Assembly.Symbols

/-! What the two passes over a program bind and write. -/
namespace NandTools

namespace Instruction

/-- What is encoded; labels are not. -/
def encoded (code : List Instruction) : List Instruction := code.filter fun i => !i.isLabel

def size (code : List Instruction) : Nat := (encoded code).length

theorem size_le_length (code : List Instruction) : size code ≤ code.length :=
  List.length_filter_le _ code

def declared? : Instruction → Option String
  | label name => some name
  | _ => none

/-- The symbol that an instruction refers to. -/
def symbol? : Instruction → Option String
  | address value =>
    if (value.toList.head?.map Char.isDigit).getD false then none else some value
  | _ => none

theorem size_label (name : String) (rest : List Instruction) :
    size (.label name :: rest) = size rest := rfl

theorem size_other {i : Instruction} (other : i.isLabel = false) (rest : List Instruction) :
    size (i :: rest) = size rest + 1 := by
  simp [size, encoded, other]

theorem declared?_eq_none {i : Instruction} (other : i.isLabel = false) : i.declared? = none := by
  cases i with
  | label name => cases other
  | address value => rfl
  | compute dest comp jump => rfl

theorem head_of_symbol {text : List Char} (symbol : isSymbol text = true) :
    (text.head?.map Char.isDigit).getD false = false := by
  cases text with
  | nil => rfl
  | cons c rest =>
    rw [isSymbol, Bool.and_eq_true, Bool.not_eq_true'] at symbol
    exact symbol.1

theorem symbol?_of_symbol {name : String} (symbol : isSymbol name.toList = true) :
    (address name).symbol? = some name := by
  rw [symbol?, head_of_symbol symbol]
  rfl

/-- An instruction is a label or it is encoded. -/
theorem label_or (i : Instruction) : (∃ name, i = .label name) ∨ i.isLabel = false := by
  cases i with
  | label name => exact .inl ⟨name, rfl⟩
  | address value => exact .inr rfl
  | compute dest comp jump => exact .inr rfl

end Instruction

namespace AssemblySymbols

/-- The address that `value` means when its symbol is bound. -/
def valueOf? (symbols : AssemblySymbols) (value : String) : Option Nat :=
  if (value.toList.head?.map Char.isDigit).getD false then
    Text.readNat Limits.address value.toList
  else symbols.get? value

theorem valueOf?_of_symbol {symbols : AssemblySymbols} {name : String}
    (symbol : Instruction.isSymbol name.toList = true) :
    symbols.valueOf? name = symbols.get? name := by
  rw [valueOf?, Instruction.head_of_symbol symbol]
  rfl

theorem valueOf?_of_readNat (symbols : AssemblySymbols) {value : String} {n : Nat}
    (read : Text.readNat Limits.address value.toList = some n) : symbols.valueOf? value = some n := by
  rw [valueOf?, if_pos (Text.head_of_readNat read), read]

theorem valueOf?_toString (symbols : AssemblySymbols) {n : Nat} (small : n ≤ Limits.address) :
    symbols.valueOf? (toString n) = some n :=
  valueOf?_of_readNat symbols (Text.readNat_toString small)

theorem Extends.valueOf? {symbols more : AssemblySymbols} (extended : symbols.Extends more)
    {value : String} {address : Nat} (meant : symbols.valueOf? value = some address) :
    more.valueOf? value = some address := by
  unfold AssemblySymbols.valueOf? at meant ⊢
  split
  · next digit =>
    rw [if_pos digit] at meant
    exact meant
  · next other =>
    rw [if_neg other] at meant
    exact extended.get? meant

/-- A value is a number that can be written, or what its symbol is bound to. -/
theorem valueOf?_le {symbols : AssemblySymbols} {bound : Nat} (most : Limits.address ≤ bound)
    (all : symbols.All (·.address ≤ bound)) {value : String} {address : Nat}
    (meant : symbols.valueOf? value = some address) : address ≤ bound := by
  unfold valueOf? at meant
  split at meant
  · exact Nat.le_trans (Text.le_of_readNat meant) most
  · obtain ⟨binding, found, rfl⟩ := Option.map_eq_some_iff.mp meant
    exact all value binding found

theorem Bounded.valueOf?_le {symbols : AssemblySymbols} (bounded : symbols.Bounded)
    {value : String} {address : Nat} (meant : symbols.valueOf? value = some address) :
    address ≤ Limits.address :=
  AssemblySymbols.valueOf?_le (Nat.le_refl _)
    (fun name binding found => (bounded name binding found).address_le) meant

/-- Labels are bound to the numbers of the instructions that they precede. -/
def Placed (symbols : AssemblySymbols) : Nat → List Instruction → Prop
  | _, [] => True
  | pc, .label name :: rest => symbols.get? name = some pc ∧ symbols.Placed pc rest
  | pc, _ :: rest => symbols.Placed (pc + 1) rest

theorem placed_other {symbols : AssemblySymbols} {i : Instruction} (other : i.isLabel = false)
    (pc : Nat) (rest : List Instruction) :
    symbols.Placed pc (i :: rest) ↔ symbols.Placed (pc + 1) rest := by
  cases i with
  | label name => cases other
  | address value => rfl
  | compute dest comp jump => rfl

theorem Extends.placed {symbols more : AssemblySymbols} (extended : symbols.Extends more) {pc : Nat}
    {code : List Instruction} (placed : symbols.Placed pc code) : more.Placed pc code := by
  induction code generalizing pc with
  | nil => trivial
  | cons i rest ih =>
    rcases i.label_or with ⟨name, rfl⟩ | other
    · exact ⟨extended.get? placed.1, ih placed.2⟩
    · rw [placed_other other] at placed ⊢
      exact ih placed

end AssemblySymbols

namespace Assembly

/-- The word of an instruction when its symbol is bound. -/
def wordOf? (symbols : AssemblySymbols) : Instruction → Option String
  | .label _ => none
  | .address value => (symbols.valueOf? value).map addressWord
  | .compute dest comp jump => (computeWord dest comp jump 0).toOption

theorem wordOf?_of_extends {symbols more : AssemblySymbols} (extended : symbols.Extends more)
    {i : Instruction} {word : String} (encoded : wordOf? symbols i = some word) :
    wordOf? more i = some word := by
  cases i with
  | label name => cases encoded
  | address value =>
    obtain ⟨address, meant, rfl⟩ := Option.map_eq_some_iff.mp encoded
    exact congrArg (Option.map addressWord) (extended.valueOf? meant)
  | compute dest comp jump => exact encoded

/-- Only errors depend on the line. -/
private theorem computeWord_eq {dest comp jump word : String} {line : Nat}
    (computed : computeWord dest comp jump line = .ok word) (other : Nat) :
    computeWord dest comp jump other = .ok word := by
  unfold computeWord at computed
  split at computed
  · cases computed
  · cases computed
  · cases computed
  · next comps dests jumps =>
    rw [computeWord, comps, dests, jumps]
    exact computed

/-- Numbers mean themselves; symbols are looked up. -/
theorem of_addressOf {symbols more : AssemblySymbols} {value : String} {line address : Nat}
    (found : addressOf symbols value line = .ok (address, more)) :
    (Instruction.address value).symbol? = none ∧ more = symbols ∧
        symbols.valueOf? value = some address ∨
      Instruction.isSymbol value.toList = true ∧ symbols.resolve value = .ok (address, more) := by
  unfold addressOf at found
  dsimp only at found
  split at found
  · next digit =>
    split at found
    · split at found
      · next read =>
        cases found
        exact .inl ⟨if_pos digit, rfl, (if_pos digit).trans read⟩
      · cases found
    · cases found
  · split at found
    · next symbol => exact .inr ⟨symbol, found⟩
    · cases found

theorem addressOf_numeral (symbols : AssemblySymbols) {value : String} {n : Nat}
    (read : Text.readNat Limits.address value.toList = some n) (line : Nat) :
    addressOf symbols value line = .ok (n, symbols) := by
  have digits := List.all_eq_true.mpr (Text.isDigit_of_readNat read).2
  simp [addressOf, Text.head_of_readNat read, digits, read]

theorem addressOf_symbol (symbols : AssemblySymbols) {name : String}
    (symbol : Instruction.isSymbol name.toList = true) (line : Nat) :
    addressOf symbols name line = symbols.resolve name := by
  simp [addressOf, Instruction.head_of_symbol symbol, symbol]

private theorem addressOf_ok {symbols : AssemblySymbols} {value : String}
    (legal : (Instruction.address value).isLegal = true)
    (room : Limits.variableBase + symbols.variableCount +
      (Instruction.address value).symbol?.toList.length ≤ Limits.screen) (line : Nat) :
    ∃ address more, addressOf symbols value line = .ok (address, more) ∧
      more.variableCount ≤
        symbols.variableCount + (Instruction.address value).symbol?.toList.length := by
  rcases Bool.or_eq_true_iff.mp legal with numeral | symbol
  · obtain ⟨n, read⟩ := Option.isSome_iff_exists.mp numeral
    exact ⟨n, symbols, addressOf_numeral symbols read line, Nat.le_add_right _ _⟩
  · rw [Instruction.symbol?_of_symbol symbol] at room ⊢
    obtain ⟨address, more, resolved, count⟩ := AssemblySymbols.resolve_ok value room
    exact ⟨address, more, (addressOf_symbol symbols symbol line).trans resolved, count⟩

theorem computeWord_ok {dest comp jump : String}
    (legal : (Instruction.compute dest comp jump).isLegal = true) (line : Nat) :
    ∃ word, computeWord dest comp jump line = .ok word := by
  simp only [Instruction.isLegal, Bool.and_eq_true] at legal
  obtain ⟨⟨dests, comps⟩, jumps⟩ := legal
  obtain ⟨destBits, dests⟩ := Option.isSome_iff_exists.mp dests
  obtain ⟨compBits, comps⟩ := Option.isSome_iff_exists.mp comps
  obtain ⟨jumpBits, jumps⟩ := Option.isSome_iff_exists.mp jumps
  rw [computeWord, dests, comps, jumps]
  exact ⟨_, rfl⟩

section FirstPass

variable {address line : Nat} {symbols more : AssemblySymbols} {rest program : Program}

theorem bindLabels_label {name : String}
    (bound : bindLabels address symbols ((line, .label name) :: rest) = (.ok (), more)) :
    ∃ defined, address ≤ Limits.romWords ∧ symbols.defineLabel name address line = .ok defined ∧
      bindLabels address defined rest = (.ok (), more) := by
  rw [bindLabels] at bound
  split at bound
  · cases bound
  · next inside =>
    split at bound
    · cases bound
    · next defined found => exact ⟨defined, Nat.le_of_not_lt inside, found, bound⟩

theorem bindLabels_other {i : Instruction} (other : i.isLabel = false) :
    bindLabels address symbols ((line, i) :: rest) =
      if address + 1 > Limits.romWords then (.error (.romOverflow Limits.romWords), symbols)
      else bindLabels (address + 1) symbols rest := by
  cases i with
  | label name => cases other
  | address value => rfl
  | compute dest comp jump => rfl

/-- The first pass keeps what is bound and binds every label to its place. -/
theorem placed_of_bindLabels (unallocated : ∀ name, symbols.cell? name = none)
    (bound : bindLabels address symbols program = (.ok (), more)) :
    symbols.Extends more ∧ more.Placed address (program.map Prod.snd) := by
  induction program generalizing address symbols with
  | nil =>
    cases bound
    exact ⟨.refl _, trivial⟩
  | cons entry rest ih =>
    obtain ⟨line, i⟩ := entry
    rcases i.label_or with ⟨name, rfl⟩ | other
    · obtain ⟨defined, _, found, bound⟩ := bindLabels_label bound
      obtain ⟨extended, placed⟩ :=
        ih (AssemblySymbols.cell?_of_defineLabel unallocated found) bound
      have first := AssemblySymbols.defineLabel_extends (unallocated name) found
      exact ⟨first.trans extended,
        extended.get? (AssemblySymbols.get?_of_defineLabel found), placed⟩
    · rw [bindLabels_other other] at bound
      split at bound
      · cases bound
      · obtain ⟨extended, placed⟩ := ih unallocated bound
        exact ⟨extended, (AssemblySymbols.placed_other other _ _).mpr placed⟩

/-- The first pass binds labels to what it has passed, which is not past the program memory. -/
theorem all_of_bindLabels {P : Binding → Prop} (all : symbols.All P)
    (each : ∀ place line, place ≤ Limits.romWords →
      place ≤ address + Instruction.size (program.map Prod.snd) → P (.label place line))
    (bound : bindLabels address symbols program = (.ok (), more)) : more.All P := by
  induction program generalizing address symbols with
  | nil =>
    cases bound
    exact all
  | cons entry rest ih =>
    obtain ⟨line, i⟩ := entry
    rcases i.label_or with ⟨name, rfl⟩ | other
    · obtain ⟨defined, inside, found, bound⟩ := bindLabels_label bound
      rw [List.map_cons, Instruction.size_label] at each
      exact ih (all.defineLabel (each address line inside (Nat.le_add_right _ _)) found) each bound
    · rw [bindLabels_other other] at bound
      rw [List.map_cons, Instruction.size_other other] at each
      split at bound
      · cases bound
      · exact ih all (fun place line inside passed => each place line inside (by omega)) bound

/-- The first pass binds nothing but labels. -/
theorem bindings_of_bindLabels {name : String} {binding : Binding}
    (bound : bindLabels address symbols program = (.ok (), more))
    (found : more.bindings[name]? = some binding) :
    symbols.bindings[name]? = some binding ∨
      .label name ∈ program.map Prod.snd ∧ ∃ address line, binding = .label address line := by
  induction program generalizing address symbols with
  | nil =>
    cases bound
    exact .inl found
  | cons entry rest ih =>
    obtain ⟨line, i⟩ := entry
    rcases i.label_or with ⟨label, rfl⟩ | other
    · obtain ⟨defined, _, defining, bound⟩ := bindLabels_label bound
      rcases ih bound with before | ⟨later, isLabel⟩
      · rcases AssemblySymbols.bindings_of_defineLabel defining before with before | ⟨rfl, same⟩
        · exact .inl before
        · exact .inr ⟨List.mem_cons_self, address, line, same⟩
      · exact .inr ⟨List.mem_cons_of_mem _ later, isLabel⟩
    · rw [bindLabels_other other] at bound
      split at bound
      · cases bound
      · rcases ih bound with before | ⟨later, isLabel⟩
        · exact .inl before
        · exact .inr ⟨List.mem_cons_of_mem _ later, isLabel⟩

/-- The first pass succeeds when its labels are new and differ, and the program is not too long. -/
theorem bindLabels_ok (address : Nat)
    (unbound : ∀ name, .label name ∈ program.map Prod.snd → symbols.bindings[name]? = none)
    (distinct : ((program.map Prod.snd).filterMap Instruction.declared?).Nodup)
    (short : address + Instruction.size (program.map Prod.snd) ≤ Limits.romWords) :
    ∃ more, bindLabels address symbols program = (.ok (), more) ∧
      more.variableCount = symbols.variableCount := by
  induction program generalizing address symbols with
  | nil => exact ⟨symbols, rfl, rfl⟩
  | cons entry rest ih =>
    obtain ⟨line, i⟩ := entry
    rcases i.label_or with ⟨name, rfl⟩ | other
    · obtain ⟨defined, found⟩ :=
        AssemblySymbols.defineLabel_ok (unbound name List.mem_cons_self) address line
      have ⟨new, distinct⟩ : name ∉ (rest.map Prod.snd).filterMap Instruction.declared? ∧
          ((rest.map Prod.snd).filterMap Instruction.declared?).Nodup := List.nodup_cons.mp distinct
      have unbound' (other : String) (member : .label other ∈ rest.map Prod.snd) :
          defined.bindings[other]? = none := by
        refine Option.eq_none_iff_forall_not_mem.mpr fun binding bound => ?_
        rcases AssemblySymbols.bindings_of_defineLabel found bound with before | ⟨rfl, _⟩
        · rw [unbound other (List.mem_cons_of_mem _ member)] at before
          cases before
        · exact new (List.mem_filterMap.mpr ⟨_, member, rfl⟩)
      obtain ⟨more, bound, count⟩ := ih address unbound' distinct short
      rw [bindLabels, if_neg (by omega), found]
      exact ⟨more, bound, count.trans (AssemblySymbols.of_defineLabel found).2.2⟩
    · rw [List.map_cons, Instruction.size_other other] at short
      rw [List.map_cons, List.filterMap_cons_none (Instruction.declared?_eq_none other)] at distinct
      obtain ⟨more, bound, count⟩ := ih (address + 1)
        (fun name member => unbound name (List.mem_cons_of_mem _ member)) distinct (by omega)
      rw [bindLabels_other other, if_neg (by omega)]
      exact ⟨more, bound, count⟩

end FirstPass

section SecondPass

variable {symbols more : AssemblySymbols} {words written : Array String} {program rest : Program}

/-- One instruction of the second pass: its symbol is bound then, and its word is written. -/
theorem encode_cons {line : Nat} {i : Instruction}
    (encoded : encode words symbols ((line, i) :: rest) = (.ok written, more)) :
    i.isLabel = true ∧ encode words symbols rest = (.ok written, more) ∨
      i.isLabel = false ∧ ∃ word next, wordOf? next i = some word ∧
        (i.symbol? = none ∧ next = symbols ∨
          ∃ name address, i.symbol? = some name ∧ symbols.resolve name = .ok (address, next)) ∧
          encode (words.push word) next rest = (.ok written, more) := by
  cases i with
  | label name => exact .inl ⟨rfl, encoded⟩
  | address value =>
    rw [encode] at encoded
    split at encoded
    · cases encoded
    · next address next found =>
      have meant : next.valueOf? value = some address := by
        rcases of_addressOf found with ⟨_, rfl, meant⟩ | ⟨symbol, resolved⟩
        · exact meant
        · rw [AssemblySymbols.valueOf?_of_symbol symbol]
          exact AssemblySymbols.get?_of_resolve resolved
      refine .inr ⟨rfl, addressWord address, next, congrArg (Option.map addressWord) meant, ?_,
        encoded⟩
      rcases of_addressOf found with ⟨numeral, same, _⟩ | ⟨symbol, resolved⟩
      · exact .inl ⟨numeral, same⟩
      · exact .inr ⟨value, address, Instruction.symbol?_of_symbol symbol, resolved⟩
  | compute dest comp jump =>
    rw [encode] at encoded
    split at encoded
    · cases encoded
    · next word computed =>
      exact .inr ⟨rfl, word, symbols, congrArg Except.toOption (computeWord_eq computed 0),
        .inl ⟨rfl, rfl⟩, encoded⟩

/-- The second pass keeps what is bound and writes the words of the instructions. -/
theorem words_of_encode (encoded : encode words symbols program = (.ok written, more)) :
    symbols.Extends more ∧ ∃ texts, written.toList = words.toList ++ texts ∧
      (Instruction.encoded (program.map Prod.snd)).map (wordOf? more) = texts.map some := by
  induction program generalizing words symbols with
  | nil =>
    cases encoded
    exact ⟨.refl _, [], (List.append_nil _).symm, rfl⟩
  | cons entry rest ih =>
    obtain ⟨line, i⟩ := entry
    rcases encode_cons encoded with ⟨label, encoded⟩ | ⟨other, word, next, first, grown, encoded⟩
    · obtain ⟨extended, texts, appended, each⟩ := ih encoded
      refine ⟨extended, texts, appended, ?_⟩
      rw [List.map_cons, Instruction.encoded, List.filter_cons_of_neg (by simp [label])]
      exact each
    · obtain ⟨later, texts, appended, each⟩ := ih encoded
      have extended : symbols.Extends next := by
        rcases grown with ⟨_, rfl⟩ | ⟨_, _, _, resolved⟩
        · exact .refl _
        · exact AssemblySymbols.resolve_extends resolved
      refine ⟨extended.trans later, word :: texts, ?_, ?_⟩
      · rw [appended, Array.toList_push, List.append_assoc]
        rfl
      · rw [List.map_cons, Instruction.encoded, List.filter_cons_of_pos (by simp [other])]
        exact List.cons_eq_cons.mpr ⟨wordOf?_of_extends later first, each⟩

/-- The second pass binds symbols to cells below the screen. -/
theorem all_of_encode {P : Binding → Prop} (all : symbols.All P)
    (each : ∀ cell, Limits.variableBase ≤ cell → cell < Limits.screen → P (.allocated cell))
    (encoded : encode words symbols program = (.ok written, more)) : more.All P := by
  induction program generalizing words symbols with
  | nil =>
    cases encoded
    exact all
  | cons entry rest ih =>
    rcases encode_cons encoded with ⟨_, encoded⟩ | ⟨_, word, next, _, grown, encoded⟩
    · exact ih all encoded
    · refine ih ?_ encoded
      rcases grown with ⟨_, rfl⟩ | ⟨_, _, _, resolved⟩
      · exact all
      · exact all.resolve each resolved

/-- The second pass binds nothing but variables. -/
theorem bindings_of_encode {name : String} {binding : Binding}
    (encoded : encode words symbols program = (.ok written, more))
    (found : more.bindings[name]? = some binding) :
    symbols.bindings[name]? = some binding ∨ ∃ address, binding = .allocated address := by
  induction program generalizing words symbols with
  | nil =>
    cases encoded
    exact .inl found
  | cons entry rest ih =>
    rcases encode_cons encoded with ⟨_, encoded⟩ | ⟨_, word, next, _, grown, encoded⟩
    · exact ih encoded
    · rcases ih encoded with before | allocated
      · rcases grown with ⟨_, rfl⟩ | ⟨other, address, _, resolved⟩
        · exact .inl before
        · rcases AssemblySymbols.bindings_of_resolve resolved before with before | ⟨_, same⟩
          · exact .inl before
          · exact .inr ⟨address, same⟩
      · exact .inr allocated

/-- The second pass succeeds when every instruction is legal and there is room for variables. -/
theorem encode_ok (words : Array String) (legal : ∀ i ∈ program.map Prod.snd, i.isLegal = true)
    (room : Limits.variableBase + symbols.variableCount +
      ((program.map Prod.snd).filterMap Instruction.symbol?).length ≤ Limits.screen) :
    ∃ written more, encode words symbols program = (.ok written, more) := by
  induction program generalizing words symbols with
  | nil => exact ⟨words, symbols, rfl⟩
  | cons entry rest ih =>
    obtain ⟨line, i⟩ := entry
    have later : ∀ i ∈ rest.map Prod.snd, i.isLegal = true :=
      fun other member => legal other (List.mem_cons_of_mem i member)
    have first : i.isLegal = true := legal i List.mem_cons_self
    cases i with
    | label name => exact ih words later room
    | address value =>
      have uses : ((Instruction.address value :: rest.map Prod.snd).filterMap
          Instruction.symbol?).length = (Instruction.address value).symbol?.toList.length +
            ((rest.map Prod.snd).filterMap Instruction.symbol?).length := by
        rw [List.filterMap_cons]
        cases (Instruction.address value).symbol? with
        | none => exact (Nat.zero_add _).symm
        | some name => exact Nat.add_comm _ 1
      rw [List.map_cons, uses] at room
      have first_room : Limits.variableBase + symbols.variableCount +
          (Instruction.address value).symbol?.toList.length ≤ Limits.screen := by omega
      obtain ⟨address, next, found, count⟩ := addressOf_ok first first_room line
      rw [encode, found]
      refine ih _ later ?_
      omega
    | compute dest comp jump =>
      obtain ⟨word, computed⟩ := computeWord_ok first line
      rw [encode, computed]
      exact ih _ later room

end SecondPass

/-- A program is assembled: its symbols are bound and its instructions are encoded. -/
structure Encodes (assembly : Assembly) (symbols : AssemblySymbols) (code : List Instruction) :
    Prop where
  predefined : AssemblySymbols.initial.Extends symbols
  placed : symbols.Placed 0 code
  words : (Instruction.encoded code).map (wordOf? symbols) = assembly.words.toList.map some
  bounded : Instruction.size code ≤ Limits.address → symbols.Bounded
  reach : symbols.All (·.address ≤ Limits.romWords)
  origin : ∀ {name : String} {binding : Binding}, symbols.bindings[name]? = some binding →
    AssemblySymbols.initial.bindings[name]? = some binding ∨
      (.label name ∈ code ∧ ∃ address line, binding = .label address line) ∨
        ∃ address, binding = .allocated address

/-- Symbols that are neither predefined nor declared are variables. -/
theorem Encodes.cell {assembly : Assembly} {symbols : AssemblySymbols} {code : List Instruction}
    (encodes : assembly.Encodes symbols code) {name : String}
    (symbol : Instruction.isSymbol name.toList = true) (used : .address name ∈ code)
    (new : AssemblySymbols.initial.bindings[name]? = none) (undeclared : .label name ∉ code) :
    ∃ address, symbols.cell? name = some address := by
  have encoded : .address name ∈ Instruction.encoded code := List.mem_filter.mpr ⟨used, rfl⟩
  have written := List.mem_map_of_mem (f := wordOf? symbols) encoded
  rw [encodes.words] at written
  obtain ⟨word, _, same⟩ := List.mem_map.mp written
  obtain ⟨address, meant, _⟩ := Option.map_eq_some_iff.mp same.symm
  rw [AssemblySymbols.valueOf?_of_symbol symbol] at meant
  obtain ⟨binding, found, _⟩ := Option.map_eq_some_iff.mp meant
  rcases encodes.origin found with predefined | ⟨declared, _⟩ | ⟨address, rfl⟩
  · rw [new] at predefined
    cases predefined
  · exact absurd declared undeclared
  · exact ⟨address, AssemblySymbols.cell?_eq_some.mpr found⟩

section Program

variable {source : List Char} {program : Program} {assembly : Assembly} {symbols : AssemblySymbols}

/-- What is assembled is read and goes through both passes. -/
theorem passes_of_assemble (assembled : assemble .initial source = (.ok assembly, symbols)) :
    ∃ program labelled, Instruction.parseProgram source = .ok program ∧
      bindLabels 0 .initial program = (.ok (), labelled) ∧
        encode #[] labelled program = (.ok assembly.words, symbols) ∧
          assembly.stats = ⟨assembly.words.size, symbols.labelCount, symbols.variableCount⟩ := by
  unfold assemble at assembled
  split at assembled
  · cases assembled
  · next program parsed =>
    split at assembled
    · cases assembled
    · next labelled bound =>
      split at assembled
      · cases assembled
      · next words more encoded =>
        cases assembled
        exact ⟨program, labelled, parsed, bound, encoded, rfl⟩

theorem encodes_of_assemble (parsed : Instruction.parseProgram source = .ok program)
    (assembled : assemble .initial source = (.ok assembly, symbols)) :
    assembly.Encodes symbols (program.map Prod.snd) := by
  obtain ⟨same, labelled, read, bound, encoded, _⟩ := passes_of_assemble assembled
  obtain rfl : program = same := Except.ok.inj (parsed.symm.trans read)
  obtain ⟨first, placed⟩ := placed_of_bindLabels AssemblySymbols.cell?_initial bound
  obtain ⟨later, texts, written, words⟩ := words_of_encode encoded
  refine ⟨first.trans later, later.placed placed, ?_, fun short => ?_, ?_, fun found => ?_⟩
  · rw [written]
    exact words
  · have labels := all_of_bindLabels AssemblySymbols.bounded_initial
      (fun place line _ passed => show (Binding.label place line).Fits from
        Nat.le_trans passed (by omega)) bound
    exact all_of_encode labels (fun cell least below => ⟨least, below⟩) encoded
  · have first : AssemblySymbols.initial.All (·.address ≤ Limits.romWords) :=
      fun name binding found =>
        Nat.le_succ_of_le (AssemblySymbols.bounded_initial name binding found).address_le
    refine all_of_encode (all_of_bindLabels first (fun place line inside _ => inside) bound) ?_ encoded
    exact fun cell _ below => Nat.le_of_lt (Nat.lt_trans below (by decide))
  · rcases bindings_of_encode encoded found with before | allocated
    · rcases bindings_of_bindLabels bound before with first | label
      · exact .inl first
      · exact .inr (.inl label)
    · exact .inr (.inr allocated)

/-- Legal programs that fit into both memories and declare no symbol twice are assembled. -/
theorem assemble_of_room (parsed : Instruction.parseProgram source = .ok program)
    (legal : ∀ i ∈ program.map Prod.snd, i.isLegal = true)
    (new : ∀ name, .label name ∈ program.map Prod.snd →
      AssemblySymbols.initial.bindings[name]? = none)
    (distinct : ((program.map Prod.snd).filterMap Instruction.declared?).Nodup)
    (short : Instruction.size (program.map Prod.snd) ≤ Limits.romWords)
    (few : ((program.map Prod.snd).filterMap Instruction.symbol?).length ≤
      Limits.screen - Limits.variableBase) :
    ∃ assembly symbols, assemble .initial source = (.ok assembly, symbols) := by
  obtain ⟨labelled, bound, count⟩ := bindLabels_ok 0 new distinct (by rwa [Nat.zero_add])
  have cells : ((program.map Prod.snd).filterMap Instruction.symbol?).length ≤ 16368 := few
  have room : Limits.variableBase + labelled.variableCount +
      ((program.map Prod.snd).filterMap Instruction.symbol?).length ≤ Limits.screen := by
    rw [count, show AssemblySymbols.initial.variableCount = 0 from rfl, Limits.variableBase,
      Limits.screen]
    omega
  obtain ⟨words, symbols, encoded⟩ := encode_ok #[] legal room
  rw [assemble, parsed]
  simp only [bound, encoded]
  exact ⟨_, _, rfl⟩

/-- Legal programs that are neither long nor declare a symbol twice are assembled. -/
theorem assemble_ok (parsed : Instruction.parseProgram source = .ok program)
    (legal : ∀ i ∈ program.map Prod.snd, i.isLegal = true)
    (new : ∀ name, .label name ∈ program.map Prod.snd →
      AssemblySymbols.initial.bindings[name]? = none)
    (distinct : ((program.map Prod.snd).filterMap Instruction.declared?).Nodup)
    (short : program.length ≤ Limits.screen - Limits.variableBase) :
    ∃ assembly symbols, assemble .initial source = (.ok assembly, symbols) := by
  have uses := List.length_filterMap_le Instruction.symbol? (program.map Prod.snd)
  have size := Instruction.size_le_length (program.map Prod.snd)
  rw [List.length_map] at uses size
  have fits : Limits.screen - Limits.variableBase ≤ Limits.romWords := by decide
  exact assemble_of_room parsed legal new distinct (by omega) (by omega)

end Program

end Assembly

end NandTools
