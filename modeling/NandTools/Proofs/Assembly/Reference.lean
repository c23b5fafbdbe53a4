import NandTools.Proofs.Assembly.Encoding
import NandTools.Proofs.Outcome

/-! Assembled programs against a reference that only counts: the instructions before a label, and
the variables that are used before a variable. -/
namespace NandTools

namespace Instruction

/-- The number of instructions before the declaration of a label. -/
def place? (code : List Instruction) (name : String) : Option Nat :=
  if .label name ∈ code then some (size (code.takeWhile (· != .label name))) else none

/-- The uses of symbols that are neither predefined nor declared, in their order. -/
def variableUses (code : List Instruction) : List String :=
  (code.filterMap symbol?).filter fun name =>
    (AssemblySymbols.predefined.lookup name).isNone && !code.contains (.label name)

/-- The number of distinct names that are used before the first use of a name. -/
def ordinal (uses : List String) (name : String) : Nat :=
  (uses.takeWhile (· != name)).eraseDups.length

private theorem takeWhile_of_mem {uses : List String} {name : String} (used : name ∈ uses)
    (more : List String) : (uses ++ more).takeWhile (· != name) = uses.takeWhile (· != name) := by
  induction uses with
  | nil => cases used
  | cons first rest ih =>
    by_cases same : first = name
    · subst same
      simp
    · have later : name ∈ rest := (List.mem_cons.mp used).resolve_left (Ne.symm same)
      have other : (first != name) = true := bne_iff_ne.mpr same
      rw [List.cons_append, List.takeWhile_cons, List.takeWhile_cons, if_pos other, if_pos other,
        ih later]

theorem ordinal_append {uses : List String} {name : String} (used : name ∈ uses)
    (more : List String) : ordinal (uses ++ more) name = ordinal uses name := by
  rw [ordinal, takeWhile_of_mem used]
  rfl

theorem ordinal_new {uses : List String} {name : String} (new : name ∉ uses) :
    ordinal (uses ++ [name]) name = uses.eraseDups.length := by
  have others : ∀ other ∈ uses, (other != name) = true := by
    intro other member
    exact bne_iff_ne.mpr fun same => new (same ▸ member)
  rw [ordinal, List.takeWhile_append_of_pos others]
  simp

theorem distinct_append_of_mem {uses : List String} {name : String} (used : name ∈ uses) :
    (uses ++ [name]).eraseDups = uses.eraseDups := by
  rw [List.eraseDups_append]
  simp [List.removeAll, used]

theorem distinct_append_new {uses : List String} {name : String} (new : name ∉ uses) :
    (uses ++ [name]).eraseDups = uses.eraseDups ++ [name] := by
  rw [List.eraseDups_append]
  simp [List.removeAll, new, List.eraseDups_cons]

end Instruction

namespace AssemblySymbols

/-- Where a label is bound by its place, the place counts the instructions before it. -/
theorem place?_of_placed {symbols : AssemblySymbols} {pc : Nat} {code : List Instruction}
    {name : String} (placed : symbols.Placed pc code) (declared : .label name ∈ code) :
    symbols.get? name =
      some (pc + Instruction.size (code.takeWhile (· != .label name))) := by
  induction code generalizing pc with
  | nil => cases declared
  | cons i rest ih =>
    by_cases same : i = .label name
    · subst same
      rw [List.takeWhile_cons, if_neg (by simp)]
      exact placed.1
    · have later : .label name ∈ rest := (List.mem_cons.mp declared).resolve_left (Ne.symm same)
      rw [List.takeWhile_cons, if_pos (bne_iff_ne.mpr same)]
      rcases i.label_or with ⟨other, rfl⟩ | other
      · exact ih placed.2 later
      · rw [ih ((placed_other other pc rest).mp placed) later, Instruction.size_other other]
        congr 1
        omega

/-- What the second pass has allocated for the symbols that it met, over those of the first. -/
structure Allocated (labelled symbols : AssemblySymbols) (uses : List String) : Prop where
  kept : labelled.Extends symbols
  fresh : ∀ {name : String}, labelled.bindings[name]? = none → symbols.bindings[name]? =
    if name ∈ uses then some (.allocated (Limits.variableBase + Instruction.ordinal uses name))
    else none
  labels : symbols.labelCount = labelled.labelCount
  cells : symbols.variableCount = uses.eraseDups.length

/-- Whether the first pass leaves a symbol to the second. -/
def leaves (labelled : AssemblySymbols) (name : String) : Bool := labelled.bindings[name]?.isNone

namespace Allocated

variable {labelled symbols more : AssemblySymbols} {uses : List String} {name : String}

theorem start (none : labelled.variableCount = 0) : Allocated labelled labelled [] where
  kept := .refl _
  fresh unbound := unbound
  labels := rfl
  cells := none

private theorem bound_of_used (allocated : Allocated labelled symbols uses)
    (unbound : labelled.bindings[name]? = none) :
    symbols.bindings[name]? = none ↔ name ∉ uses := by
  rw [allocated.fresh unbound]
  by_cases used : name ∈ uses <;> simp [used]

/-- A use of a symbol that the first pass bound allocates nothing. -/
theorem resolve_kept {address : Nat} (allocated : Allocated labelled symbols uses)
    (bound : labelled.leaves name = false)
    (resolved : symbols.resolve name = .ok (address, more)) :
    Allocated labelled more uses := by
  obtain ⟨binding, found⟩ := Option.isSome_iff_exists.mp (Option.isNone_eq_false_iff.mp bound)
  rcases of_resolve resolved with ⟨rfl, _⟩ | ⟨unbound, _⟩
  · exact allocated
  · rw [allocated.kept name binding found] at unbound
    cases unbound

/-- A use of any other symbol allocates the next cell when it is the first. -/
theorem resolve_fresh {address : Nat} (allocated : Allocated labelled symbols uses)
    (left : labelled.leaves name = true)
    (resolved : symbols.resolve name = .ok (address, more)) :
    Allocated labelled more (uses ++ [name]) := by
  have unbound : labelled.bindings[name]? = none := Option.isNone_iff_eq_none.mp left
  rcases of_resolve resolved with ⟨rfl, found⟩ | ⟨new, inserted, rfl, _, counted⟩
  · have used : name ∈ uses := by
      refine Decidable.byContradiction fun unused => ?_
      rw [get?, (allocated.bound_of_used unbound).mpr unused] at found
      cases found
    refine ⟨allocated.kept, fun {other} free => ?_, allocated.labels, ?_⟩
    · rw [allocated.fresh free]
      by_cases known : other ∈ uses
      · rw [if_pos known, if_pos (List.mem_append_left _ known), Instruction.ordinal_append known]
      · rw [if_neg known, if_neg]
        rw [List.mem_append, List.mem_singleton]
        rintro (member | rfl)
        · exact known member
        · exact known used
    · rw [Instruction.distinct_append_of_mem used]
      exact allocated.cells
  · have unused : name ∉ uses := (allocated.bound_of_used unbound).mp new
    refine ⟨allocated.kept.trans (resolve_extends resolved), fun {other} free => ?_,
      (labelCount_of_resolve resolved).trans allocated.labels, ?_⟩
    · rw [inserted, Std.HashMap.getElem?_insert]
      by_cases same : name = other
      · subst same
        rw [if_pos (beq_self_eq_true name),
          if_pos (List.mem_append_right uses List.mem_cons_self),
          Instruction.ordinal_new unused, allocated.cells]
      · rw [if_neg (fun equal => same (eq_of_beq equal)), allocated.fresh free]
        by_cases known : other ∈ uses
        · rw [if_pos known, if_pos (List.mem_append_left _ known),
            Instruction.ordinal_append known]
        · rw [if_neg known, if_neg]
          rw [List.mem_append, List.mem_singleton]
          rintro (member | rfl)
          · exact known member
          · exact same rfl
    · rw [counted, Instruction.distinct_append_new unused, List.length_append, allocated.cells]
      rfl

end Allocated

end AssemblySymbols

namespace Assembly

open AssemblySymbols (Allocated)

variable {labelled symbols more : AssemblySymbols} {uses : List String}

/-- The second pass allocates a cell for each symbol that it meets and the first pass left. -/
theorem allocated_of_encode {words written : Array String} {program : Program}
    (allocated : Allocated labelled symbols uses)
    (encoded : encode words symbols program = (.ok written, more)) :
    Allocated labelled more
      (uses ++ ((program.map Prod.snd).filterMap Instruction.symbol?).filter labelled.leaves) := by
  induction program generalizing words symbols uses with
  | nil =>
    cases encoded
    simpa using allocated
  | cons entry rest ih =>
    obtain ⟨line, i⟩ := entry
    rw [List.map_cons, List.filterMap_cons]
    rcases encode_cons encoded with ⟨label, later⟩ | ⟨_, _, next, _, grown, later⟩
    · cases i with
      | label name => exact ih allocated later
      | address value => cases label
      | compute dest comp jump => cases label
    · rcases grown with ⟨unnamed, rfl⟩ | ⟨name, address, named, resolved⟩
      · rw [unnamed]
        exact ih allocated later
      · rw [named]
        dsimp only
        cases left : labelled.leaves name with
        | false =>
          rw [List.filter_cons_of_neg (by simp [left])]
          exact ih (allocated.resolve_kept left resolved) later
        | true =>
          rw [List.filter_cons_of_pos left, ← List.singleton_append, ← List.append_assoc]
          exact ih (allocated.resolve_fresh left resolved) later

theorem counts_of_bindLabels {address : Nat} {program : Program}
    (bound : bindLabels address symbols program = (.ok (), more)) :
    more.labelCount =
        symbols.labelCount + ((program.map Prod.snd).filterMap Instruction.declared?).length ∧
      more.variableCount = symbols.variableCount := by
  induction program generalizing address symbols with
  | nil =>
    cases bound
    exact ⟨rfl, rfl⟩
  | cons entry rest ih =>
    obtain ⟨line, i⟩ := entry
    rcases i.label_or with ⟨name, rfl⟩ | other
    · obtain ⟨defined, _, found, bound⟩ := bindLabels_label bound
      obtain ⟨labels, cells⟩ := ih bound
      refine ⟨?_, cells.trans (AssemblySymbols.of_defineLabel found).2.2⟩
      rw [labels, AssemblySymbols.labelCount_of_defineLabel found]
      exact Nat.add_right_comm _ _ _
    · rw [bindLabels_other other] at bound
      rw [List.map_cons, List.filterMap_cons_none (Instruction.declared?_eq_none other)]
      split at bound
      · cases bound
      · exact ih bound

/-- The first pass leaves what is neither predefined nor declared. -/
theorem leaves_of_bindLabels {program : Program}
    (bound : bindLabels 0 .initial program = (.ok (), labelled)) (name : String) :
    labelled.leaves name = ((AssemblySymbols.predefined.lookup name).isNone &&
      !(program.map Prod.snd).contains (.label name)) := by
  obtain ⟨extended, placed⟩ := placed_of_bindLabels AssemblySymbols.cell?_initial bound
  cases found : labelled.bindings[name]? with
  | none =>
    have unlisted : AssemblySymbols.predefined.lookup name = none := by
      refine Option.eq_none_iff_forall_not_mem.mpr fun address listed => ?_
      have kept := extended name _ (AssemblySymbols.lookup_predefined.mp listed)
      rw [found] at kept
      cases kept
    have undeclared : .label name ∉ program.map Prod.snd := by
      intro declared
      have known := AssemblySymbols.place?_of_placed placed declared
      rw [AssemblySymbols.get?, found] at known
      cases known
    simp [AssemblySymbols.leaves, found, unlisted, undeclared]
  | some binding =>
    rcases bindings_of_bindLabels bound found with before | ⟨declared, _⟩
    · obtain ⟨address, rfl, listed⟩ := AssemblySymbols.predefined_of_bindings before
      simp [AssemblySymbols.leaves, found, AssemblySymbols.lookup_predefined.mpr before]
    · simp [AssemblySymbols.leaves, found, declared]

/-- What a value means in a program: a numeral means its number, a predefined symbol its address, a
label the number of instructions before it, and any other symbol a cell of its own, in the order of
first uses. -/
def referenceAddress (code : List Instruction) (value : String) : Nat :=
  if (value.toList.head?.map Char.isDigit).getD false then Nat.ofDigitChars 10 value.toList 0
  else
    match AssemblySymbols.predefined.lookup value, Instruction.place? code value with
    | some address, _ => address
    | none, some place => place
    | none, none =>
      Limits.variableBase + Instruction.ordinal (Instruction.variableUses code) value

/-- The word of an instruction in a program: an address is led by zeros up to fifteen digits, and
the bits of a destination say which registers it names. -/
def referenceWord? (code : List Instruction) : Instruction → Option String
  | .label _ => none
  | .address value =>
    some ("0" ++ String.ofList
      (List.leftpad 15 '0' (Nat.toDigits 2 (referenceAddress code value))))
  | .compute dest comp jump =>
    match Mnemonic.compBits? comp, Mnemonic.jumpBits? jump with
    | some compBits, some jumpBits =>
      let named (register : Char) : Char := if dest.toList.contains register then '1' else '0'
      some ("111" ++ compBits ++ String.ofList [named 'A', named 'D', named 'M'] ++ jumpBits)
    | _, _ => none

theorem addressWord_eq (address : Nat) :
    addressWord address = "0" ++ String.ofList (List.leftpad 15 '0' (Nat.toDigits 2 address)) := by
  rw [addressWord, Text.binary, Text.binaryDigits_eq_toDigits]
  rfl

private theorem referenceWord?_compute {code : List Instruction} {dest comp jump word : String}
    (computed : computeWord dest comp jump 0 = .ok word) :
    referenceWord? code (.compute dest comp jump) = some word := by
  unfold computeWord at computed
  split at computed
  · cases computed
  · cases computed
  · cases computed
  · next compBits destBits jumpBits comps dests jumps =>
    cases computed
    obtain ⟨target, parsed, rfl⟩ := Option.map_eq_some_iff.mp dests
    rw [referenceWord?, comps, jumps, Mnemonic.names_of_dest parsed]
    rfl

section Program

variable {program : Program}

/-- What a used symbol is bound to in the end is what the reference counts. -/
theorem referenceAddress_of_valueOf? {value : String} {address : Nat}
    (bound : bindLabels 0 .initial program = (.ok (), labelled))
    (allocated : Allocated labelled symbols (Instruction.variableUses (program.map Prod.snd)))
    (used : .address value ∈ program.map Prod.snd)
    (meant : symbols.valueOf? value = some address) :
    referenceAddress (program.map Prod.snd) value = address := by
  obtain ⟨extended, placed⟩ := placed_of_bindLabels AssemblySymbols.cell?_initial bound
  unfold AssemblySymbols.valueOf? at meant
  unfold referenceAddress
  split at meant
  · next numeral =>
    rw [if_pos numeral]
    exact (Text.eq_of_readNat meant).symm
  · next symbol =>
    rw [if_neg symbol]
    obtain ⟨binding, found, rfl⟩ := Option.map_eq_some_iff.mp meant
    cases listed : AssemblySymbols.predefined.lookup value with
    | some known =>
      have first := extended value _ (AssemblySymbols.lookup_predefined.mp listed)
      rw [allocated.kept value _ first] at found
      cases found
      rfl
    | none =>
      by_cases declared : .label value ∈ program.map Prod.snd
      · have known := allocated.kept.get? (AssemblySymbols.place?_of_placed placed declared)
        rw [AssemblySymbols.get?, found] at known
        rw [Instruction.place?, if_pos declared]
        simpa using (Option.some.inj known).symm
      · have left := leaves_of_bindLabels bound value
        rw [listed] at left
        have unbound : labelled.bindings[value]? = none := by
          refine Option.isNone_iff_eq_none.mp (left.trans ?_)
          simp [declared]
        have among : value ∈ Instruction.variableUses (program.map Prod.snd) := by
          refine List.mem_filter.mpr ⟨List.mem_filterMap.mpr ⟨_, used, if_neg symbol⟩, ?_⟩
          rw [← leaves_of_bindLabels bound value]
          exact Option.isNone_iff_eq_none.mpr unbound
        rw [allocated.fresh unbound, if_pos among] at found
        cases found
        rw [Instruction.place?, if_neg declared]
        rfl

end Program

/-- Every program that is assembled by itself has the words of the reference, one for each
instruction and in their order; its labels and its variables are counted. -/
theorem assemble_eq_reference {source : List Char} {assembly : Assembly}
    (assembled : assemble .initial source = (.ok assembly, symbols)) :
    ∃ program, Instruction.parseProgram source = .ok program ∧
      let code := program.map Prod.snd
      assembly.words.toList.map some =
          (Instruction.encoded code).map (referenceWord? code) ∧
        assembly.words.size = (Instruction.encoded code).length ∧
          assembly.stats =
            ⟨assembly.words.size, (code.filterMap Instruction.declared?).length,
              (Instruction.variableUses code).eraseDups.length⟩ := by
  obtain ⟨program, labelled, parsed, bound, encoded, stats⟩ := passes_of_assemble assembled
  have encodes := encodes_of_assemble parsed assembled
  obtain ⟨labels, cells⟩ := counts_of_bindLabels bound
  have allocated := allocated_of_encode (Allocated.start cells) encoded
  have uses : ((program.map Prod.snd).filterMap Instruction.symbol?).filter labelled.leaves =
      Instruction.variableUses (program.map Prod.snd) :=
    List.filter_congr fun name _ => leaves_of_bindLabels bound name
  rw [List.nil_append, uses] at allocated
  refine ⟨program, parsed, ?_, ?_, ?_⟩
  · rw [← encodes.words]
    refine List.map_congr_left fun i member => ?_
    have written := List.mem_map_of_mem (f := wordOf? symbols) member
    rw [encodes.words] at written
    obtain ⟨word, _, same⟩ := List.mem_map.mp written
    rw [← same]
    cases i with
    | label name => cases same
    | address value =>
      obtain ⟨address, meant, rfl⟩ := Option.map_eq_some_iff.mp same.symm
      have used : .address value ∈ program.map Prod.snd := (List.mem_filter.mp member).1
      rw [referenceWord?, referenceAddress_of_valueOf? bound allocated used meant,
        addressWord_eq]
    | compute dest comp jump =>
      exact (referenceWord?_compute (Except.ok_of_toOption same.symm)).symm
  · have lengths := congrArg List.length encodes.words
    simpa using lengths.symm
  · rw [stats, allocated.labels, allocated.cells, labels]
    simp [AssemblySymbols.initial]

theorem assemble_eq_reference_of_forward_label : ∃ assembly symbols,
    assemble .initial "@END\n0;JMP\n@i\n(END)\nMA=M+1 // next\n@j\n@i\n@R2\n@007\n".toList =
        (.ok assembly, symbols) ∧
      assembly.words.toList =
        ["0000000000000011", "1110101010000111", "0000000000010000", "1111110111101000",
          "0000000000010001", "0000000000010000", "0000000000000010", "0000000000000111"] ∧
        assembly.stats = ⟨8, 1, 2⟩ := by
  have parsed : Instruction.parseProgram
      "@END\n0;JMP\n@i\n(END)\nMA=M+1 // next\n@j\n@i\n@R2\n@007\n".toList = .ok
        [(1, .address "END"), (2, .compute "" "0" "JMP"), (3, .address "i"), (4, .label "END"),
          (5, .compute "MA" "M+1" ""), (6, .address "j"), (7, .address "i"), (8, .address "R2"),
          (9, .address "007")] := by
    rfl
  have new : ∀ name, .label name ∈ [Instruction.address "END", .compute "" "0" "JMP",
      .address "i", .label "END", .compute "MA" "M+1" "", .address "j", .address "i",
      .address "R2", .address "007"] → AssemblySymbols.initial.bindings[name]? = none := by
    intro name member
    obtain rfl : name = "END" := by simpa using member
    exact AssemblySymbols.bindings_of_not_predefined (by decide +kernel)
  obtain ⟨assembly, symbols, assembled⟩ :=
    assemble_ok parsed (by decide +kernel) new (by decide) (by decide)
  obtain ⟨program, read, words, size, stats⟩ := assemble_eq_reference assembled
  obtain rfl := Except.ok.inj (parsed.symm.trans read)
  refine ⟨assembly, symbols, assembled, ?_, ?_⟩
  · refine (List.map_inj_right fun _ _ => Option.some.inj).mp (words.trans ?_)
    decide +kernel
  · rw [stats, size]
    decide +kernel

end Assembly

end NandTools
