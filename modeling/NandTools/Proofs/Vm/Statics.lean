import NandTools.Proofs.Assembly.Addresses
import NandTools.Proofs.Machine.Computation
import NandTools.Proofs.Vm.Labels

/-! The static variables of a translation: where it refers to them, and what stands there when it is
assembled. -/
namespace NandTools

/-- Static variables are named after the module that they belong to. -/
def staticName (static : String × Nat) : String := s!"{static.1}.{static.2}"

theorem toList_staticName (static : String × Nat) : (staticName static).toList =
    static.1.toList ++ '.' :: (toString static.2).toList :=
  CodeWriter.toList_static static.1 static.2

/-- An index has no dot, so the last dot of a name is the one after the module. -/
theorem staticName_injective : Function.Injective staticName := by
  intro static static' same
  have texts := congrArg String.toList same
  rw [toList_staticName, toList_staticName] at texts
  have absent (n : Nat) := Text.not_mem_toString '.' (by decide) n
  obtain ⟨modules, indexes⟩ := eq_of_last_mark (absent _) (absent _) texts
  exact Prod.ext (String.toList_inj.mp modules) (Text.toString_injective indexes)

theorem dotted_staticName (static : String × Nat) : '.' ∈ (staticName static).toList := by
  rw [toList_staticName]
  exact List.mem_append_right _ List.mem_cons_self

namespace Step

/-- No function, label or return of a session is called like one of some static variables. -/
def Clear (statics : List (String × Nat)) (steps : List Step) : Prop :=
  ∀ static ∈ statics, staticName static ∉ functions steps ∧
    staticName static ∉ (labels none steps).map labelText ∧ staticName static ∉ returnTexts steps

/-- Outcomes have no dot. -/
theorem staticName_ne_outcome {steps : List Step} (static : String × Nat) :
    staticName static ∉ outcomeTexts steps := by
  intro outcome
  have kinds : ∀ kind ∈ ["IS_", "END_"], '.' ∉ kind.toList := by decide
  have names : ∀ name ∈ ["EQ", "GT", "LT"], '.' ∉ name.toList := by decide
  obtain ⟨comparison, among, outcome⟩ := List.mem_flatMap.mp outcome
  have known := mem_comparisons (List.fst_mem_of_mem_zipIdx among)
  obtain ⟨kind, listed, chars⟩ := CodeWriter.toList_outcome outcome
  have dotted := dotted_staticName static
  rw [chars, List.mem_append, List.mem_append, List.mem_cons] at dotted
  rcases dotted with (front | name) | mark | number
  · exact kinds kind listed front
  · exact names _ known name
  · cases mark
  · exact Text.not_mem_toString '.' (by decide) _ number

/-- Names are clear when modules have no dollar sign and no function is called like a static
variable. -/
theorem clear_of_plain {statics : List (String × Nat)} {steps : List Step}
    (inside : ∀ label ∈ labels none steps, label.1.isSome)
    (unmarked : ∀ static ∈ statics, '$' ∉ static.1.toList)
    (functions : ∀ static ∈ statics, staticName static ∉ functions steps) :
    Clear statics steps := by
  intro static member
  have plain : '$' ∉ (staticName static).toList := by
    rw [toList_staticName, List.mem_append, List.mem_cons, not_or, not_or]
    exact ⟨unmarked static member, by decide, Text.not_mem_toString '$' (by decide) _⟩
  refine ⟨functions static member, fun label => ?_, fun call => plain (marked_of_return call)⟩
  obtain ⟨label, among, same⟩ := List.mem_map.mp label
  exact plain (same ▸ marked_of_label (inside label among))

end Step

namespace CodeWriter

/-- The references to static variables in a session: the numbers of their instructions, counted from
`first`, and the variables. A popped value is taken off the stack before its variable is named. -/
def references (w : CodeWriter) (first : Nat) : List Step → List (Nat × String × Nat)
  | [] => []
  | step :: rest =>
    (match step with
      | .command (.push .static index) => [(first, w.module, index)]
      | .command (.pop .static index) => [(first + popToD.length, w.module, index)]
      | _ => []) ++
    (w.after step).references
      (first + Instruction.size ((w.stepLines step).filterMap AssemblyLine.instruction?)) rest

/-- Where a command refers to a static variable, its code names it. -/
private theorem encoded_first {w : CodeWriter} {first place : Nat} {static : String × Nat}
    {step : Step} (member : (place, static) ∈ w.references first [step]) :
    ∃ offset, place = first + offset ∧
      (Instruction.encoded ((w.stepLines step).filterMap AssemblyLine.instruction?))[offset]? =
        some (.address (staticName static)) := by
  unfold references at member
  rw [references, List.append_nil] at member
  split at member
  · next index =>
    cases List.mem_singleton.mp member
    refine ⟨0, rfl, ?_⟩
    rw [stepLines, instructions_of_lines]
    rfl
  · next index =>
    cases List.mem_singleton.mp member
    refine ⟨popToD.length, rfl, ?_⟩
    rw [stepLines, instructions_of_lines]
    rfl
  · cases member

theorem references_cons (w : CodeWriter) (first : Nat) (step : Step) (rest : List Step) :
    w.references first (step :: rest) = w.references first [step] ++ (w.after step).references
      (first + Instruction.size ((w.stepLines step).filterMap AssemblyLine.instruction?)) rest := by
  simp only [references, List.append_nil]

/-- A reference to a static variable is an instruction that names it. -/
theorem encoded_reference {w : CodeWriter} {first place : Nat} {static : String × Nat}
    {steps : List Step} (member : (place, static) ∈ w.references first steps) :
    ∃ offset, place = first + offset ∧
      (Instruction.encoded ((w.listing steps).filterMap AssemblyLine.instruction?))[offset]? =
        some (.address (staticName static)) := by
  induction steps generalizing w first with
  | nil => cases member
  | cons step rest ih =>
    rw [references_cons] at member
    rw [listing, List.filterMap_append, Instruction.encoded_append]
    rcases List.mem_append.mp member with here | later
    · obtain ⟨offset, rfl, found⟩ := encoded_first here
      obtain ⟨inside, _⟩ := List.getElem?_eq_some_iff.mp found
      exact ⟨offset, rfl, (List.getElem?_append_left inside).trans found⟩
    · obtain ⟨offset, rfl, found⟩ := ih later
      refine ⟨_, Nat.add_assoc first _ offset, ?_⟩
      rw [Instruction.size, List.getElem?_append_right (Nat.le_add_right _ _),
        Nat.add_sub_cancel_left]
      exact found

end CodeWriter

open Assembly (addressWord)

/-- Each reference is the word of a cell for variables, and two references are the same word just when
they are to the same variable. -/
structure Assembly.Isolates (assembly : Assembly) (symbols : AssemblySymbols)
    (references : List (Nat × String × Nat)) : Prop where
  cell : ∀ reference ∈ references, ∃ cell, symbols.cell? (staticName reference.2) = some cell ∧
    Limits.variableBase ≤ cell ∧ cell < Limits.screen ∧
      assembly.words[reference.1]? = some (addressWord cell)
  apart : ∀ first ∈ references, ∀ second ∈ references,
    assembly.words[first.1]? = assembly.words[second.1]? ↔ first.2 = second.2

namespace Translation

/-- Where a session refers to static variables. -/
def references (annotate : Bool) (steps : List Step) : List (Nat × String × Nat) :=
  CodeWriter.references { annotate } 0 steps

theorem mem_code_iff {annotate : Bool} {steps : List Step} {name : String} :
    Instruction.label name ∈ code annotate steps ↔
      name ∈ CodeWriter.declared { annotate } steps := by
  rw [CodeWriter.declared, List.mem_filterMap]
  constructor
  · intro member
    exact ⟨_, member, rfl⟩
  · rintro ⟨i, member, same⟩
    cases i with
    | label name =>
      cases same
      exact member
    | _ => cases same

section Accepted

variable {modules : List (String × List Char)} {bootstrap annotate : Bool}
  {translation : Translation} {assembly : Assembly} {symbols : AssemblySymbols}
  (named : ∀ module ∈ modules, Instruction.isSymbol module.1.toList = true)
  (accepted : (Translation.ofModules modules bootstrap annotate).1 = .ok translation)
  (assembled : Assembly.assemble .initial translation.assembly.toList = (.ok assembly, symbols))
include named accepted assembled

omit accepted assembled in
/-- A reference names a symbol, for a name with a dot is not a number. -/
private theorem symbol_of_reference {place : Nat} {static : String × Nat}
    (member : (place, static) ∈ references annotate (Step.ofModules modules bootstrap)) :
    Instruction.isSymbol (staticName static).toList = true := by
  obtain ⟨offset, _, found⟩ := CodeWriter.encoded_reference member
  have among := (List.mem_filter.mp (List.mem_of_getElem? found)).1
  have undigited (digits : ∀ c ∈ (staticName static).toList, c.isDigit = true) : False :=
    Bool.false_ne_true (digits '.' (dotted_staticName static))
  rcases legal_or_size_of_mem named _ among with legal | ⟨_, args, _, same⟩
  · rcases Bool.or_eq_true_iff.mp legal with numeral | symbol
    · obtain ⟨value, read⟩ := Option.isSome_iff_exists.mp numeral
      exact absurd (Text.isDigit_of_readNat read).2 undigited
    · exact symbol
  · rw [Instruction.address.inj same] at undigited
    exact absurd (Text.isDigit_of_toString (n := args + 5)) undigited

omit named accepted assembled in
private theorem declared_iff {steps : List Step} {static : String × Nat} :
    Instruction.label (staticName static) ∈ code annotate steps ↔
      staticName static ∈ Step.functions steps ∨
        staticName static ∈ (Step.labels none steps).map Step.labelText ∨
          staticName static ∈ Step.returnTexts steps := by
  rw [mem_code_iff, (CodeWriter.declared_perm_sorted _ _).mem_iff]
  change staticName static ∈ Step.functions steps ++ ((Step.labels none steps).map Step.labelText ++
    (Step.returnTexts steps ++ Step.outcomeTexts steps)) ↔ _
  simp only [List.mem_append, Step.staticName_ne_outcome, or_false]

omit named accepted assembled in
private theorem clear_iff {steps : List Step} :
    Step.Clear ((references annotate steps).map Prod.snd) steps ↔
      ∀ reference ∈ references annotate steps,
        Instruction.label (staticName reference.2) ∉ code annotate steps := by
  simp only [Step.Clear, List.forall_mem_map, declared_iff, not_or]

/-- What stands at a reference is the word of what its variable's name stands for. -/
private theorem word_of_reference {reference : Nat × String × Nat}
    (member : reference ∈ references annotate (Step.ofModules modules bootstrap)) :
    ∃ address, symbols.get? (staticName reference.2) = some address ∧
      assembly.words[reference.1]? = some (addressWord address) := by
  obtain ⟨program, parsed, same⟩ := parsed_assembly named accepted
  obtain ⟨offset, place, found⟩ := CodeWriter.encoded_reference member
  rw [Nat.zero_add] at place
  refine Assembly.word_of_symbol assembled parsed (symbol_of_reference named member) ?_
  rw [same, place]
  exact found

/-- A variable whose name is not declared is a cell, and the reference is the word of the cell. -/
private theorem cell_of_reference {reference : Nat × String × Nat}
    (member : reference ∈ references annotate (Step.ofModules modules bootstrap))
    (undeclared : Instruction.label (staticName reference.2) ∉
      code annotate (Step.ofModules modules bootstrap)) :
    ∃ cell, symbols.cell? (staticName reference.2) = some cell ∧
      assembly.words[reference.1]? = some (addressWord cell) := by
  obtain ⟨program, parsed, same⟩ := parsed_assembly named accepted
  obtain ⟨offset, _, found⟩ := CodeWriter.encoded_reference member
  obtain ⟨address, meant, word⟩ := word_of_reference named accepted assembled member
  have used := (List.mem_filter.mp (List.mem_of_getElem? found)).1
  obtain ⟨cell, allocated⟩ := (Assembly.encodes_of_assemble parsed assembled).cell
    (symbol_of_reference named member) (same ▸ used)
    (AssemblySymbols.unbound_of_mark (dotted_staticName _) (by decide)) (same ▸ undeclared)
  rw [AssemblySymbols.get?, AssemblySymbols.cell?_eq_some.mp allocated] at meant
  cases meant
  exact ⟨_, allocated, word⟩

/-- A variable whose name is declared is no cell, and the reference is the word of a place in the
program. -/
private theorem target_of_reference {reference : Nat × String × Nat}
    (member : reference ∈ references annotate (Step.ofModules modules bootstrap))
    (declared : Instruction.label (staticName reference.2) ∈
      code annotate (Step.ofModules modules bootstrap)) :
    symbols.cell? (staticName reference.2) = none ∧ ∃ target,
      Instruction.place? (code annotate (Step.ofModules modules bootstrap))
          (staticName reference.2) = some target ∧
        assembly.words[reference.1]? = some (addressWord target) := by
  obtain ⟨program, parsed, same⟩ := parsed_assembly named accepted
  obtain ⟨address, meant, word⟩ := word_of_reference named accepted assembled member
  rw [← same] at declared ⊢
  refine ⟨Assembly.cell?_of_declared assembled parsed declared, address, ?_, word⟩
  rw [← Assembly.get?_of_declared assembled parsed declared, meant]

omit assembled in
/-- A short session with names of its own is assembled. -/
theorem assembled_of_short (short : (code annotate (Step.ofModules modules bootstrap)).length ≤
      Limits.screen - Limits.variableBase)
    (legal : (code annotate (Step.ofModules modules bootstrap)).all Instruction.isLegal = true)
    (distinct : (CodeWriter.declared { annotate } (Step.ofModules modules bootstrap)).Nodup)
    (new : ∀ name ∈ CodeWriter.declared { annotate } (Step.ofModules modules bootstrap),
      name ∉ AssemblySymbols.predefined.map Prod.fst) :
    ∃ assembly symbols,
      Assembly.assemble .initial translation.assembly.toList = (.ok assembly, symbols) := by
  obtain ⟨program, parsed, same⟩ := parsed_assembly named accepted
  apply Assembly.assemble_ok parsed
  · rw [same]
    exact List.all_eq_true.mp legal
  · intro name declared
    rw [same] at declared
    exact AssemblySymbols.bindings_of_not_predefined
      (new name (List.mem_filterMap.mpr ⟨_, declared, rfl⟩))
  · rw [same]
    exact distinct
  · rw [← same, List.length_map] at short
    exact short

/-- Where names are clear, each reference to a static variable is the word of the variable's own cell.
Elsewhere a reference is the word of a place in the program. -/
theorem isolated_iff_clear :
    let steps := Step.ofModules modules bootstrap
    (assembly.Isolates symbols (references annotate steps) ↔
        Step.Clear ((references annotate steps).map Prod.snd) steps) ∧
      ∀ reference ∈ references annotate steps,
        Instruction.label (staticName reference.2) ∈ code annotate steps →
          symbols.cell? (staticName reference.2) = none ∧ ∃ target,
            Instruction.place? (code annotate steps) (staticName reference.2) = some target ∧
              assembly.words[reference.1]? = some (addressWord target) := by
  intro steps
  obtain ⟨program, parsed, same⟩ := parsed_assembly named accepted
  rw [clear_iff]
  refine ⟨⟨fun isolates reference member declared => ?_, fun clear => ⟨?_, ?_⟩⟩,
    fun reference member declared => target_of_reference named accepted assembled member declared⟩
  · obtain ⟨cell, allocated, _⟩ := isolates.cell reference member
    rw [(target_of_reference named accepted assembled member declared).1] at allocated
    cases allocated
  · intro reference member
    obtain ⟨cell, allocated, word⟩ :=
      cell_of_reference named accepted assembled member (clear reference member)
    obtain ⟨least, below⟩ := Assembly.cell_inside assembled allocated
    exact ⟨cell, allocated, least, below, word⟩
  · intro first member second member'
    obtain ⟨cell, allocated, word⟩ :=
      cell_of_reference named accepted assembled member (clear first member)
    obtain ⟨cell', allocated', word'⟩ :=
      cell_of_reference named accepted assembled member' (clear second member')
    rw [word, word', Option.some_inj]
    constructor
    · intro equal
      have small {cell : Nat} (below : cell < Limits.screen) : cell < 65536 :=
        Nat.lt_trans below (by decide)
      obtain rfl := Assembly.addressWord_injective
        (small (Assembly.cell_inside assembled allocated).2)
        (small (Assembly.cell_inside assembled allocated').2) equal
      exact staticName_injective (Assembly.cell?_injective assembled parsed allocated allocated')
    · intro equal
      rw [equal, allocated'] at allocated
      rw [Option.some.inj allocated]

end Accepted

theorem isolated_of_two_modules :
    let main := "function Main.main 0\npush static 0\npop static 1\n".toList
    let list := "function List.head 0\npush static 0\n".toList
    let steps := Step.ofModules [("Main", main), ("List", list)] false
    references false steps = [(0, "Main", 0), (10, "Main", 1), (12, "List", 0)] ∧
      ∃ translation assembly symbols,
        (Translation.ofModules [("Main", main), ("List", list)] false false).1 = .ok translation ∧
          Assembly.assemble .initial translation.assembly.toList = (.ok assembly, symbols) ∧
            assembly.Isolates symbols (references false steps) := by
  intro main list steps
  obtain ⟨translation, accepted⟩ : ∃ translation,
      (Translation.ofModules [("Main", main), ("List", list)] false false).1 = .ok translation :=
    ⟨_, rfl⟩
  have named : ∀ module ∈ [("Main", main), ("List", list)],
      Instruction.isSymbol module.1.toList = true := by
    decide
  have found : references false steps = [(0, "Main", 0), (10, "Main", 1), (12, "List", 0)] := by
    decide +kernel
  obtain ⟨assembly, symbols, assembled⟩ := assembled_of_short named accepted (by decide +kernel)
    (by decide +kernel) (by decide +kernel) (by decide +kernel)
  have clear : Step.Clear ((references false steps).map Prod.snd) steps := by
    rw [found]
    exact Step.clear_of_plain (by decide +kernel) (by decide) (by decide +kernel)
  exact ⟨found, translation, assembly, symbols, accepted, assembled,
    (isolated_iff_clear named accepted assembled).1.mpr clear⟩

/-- A function may have the name of a static variable, which is its entry then. -/
theorem static_not_isolated :
    let source := "function Main.0 0\npush static 0\n".toList
    (0, "Main", 0) ∈ references false (Step.ofModules [("Main", source)] false) ∧
      ∃ translation assembly symbols,
        (Translation.ofModules [("Main", source)] false false).1 = .ok translation ∧
          Assembly.assemble .initial translation.assembly.toList = (.ok assembly, symbols) ∧
            symbols.cell? "Main.0" = none ∧ assembly.words[0]? = some "0000000000000000" := by
  intro source
  obtain ⟨translation, accepted⟩ : ∃ translation,
      (Translation.ofModules [("Main", source)] false false).1 = .ok translation := ⟨_, rfl⟩
  have named : ∀ module ∈ [("Main", source)], Instruction.isSymbol module.1.toList = true := by
    decide
  have found : (0, "Main", 0) ∈ references false (Step.ofModules [("Main", source)] false) := by
    decide +kernel
  have declared : Instruction.label (staticName ("Main", 0)) ∈
      code false (Step.ofModules [("Main", source)] false) := by
    decide +kernel
  obtain ⟨assembly, symbols, assembled⟩ := assembled_of_short named accepted (by decide +kernel)
    (by decide +kernel) (by decide +kernel) (by decide +kernel)
  obtain ⟨unallocated, target, place, word⟩ :=
    target_of_reference named accepted assembled found declared
  have entry : Instruction.place? (code false (Step.ofModules [("Main", source)] false))
      (staticName ("Main", 0)) = some 0 := by
    decide +kernel
  obtain rfl := Option.some.inj (place.symm.trans entry)
  exact ⟨found, translation, assembly, symbols, accepted, assembled, unallocated,
    word.trans (by decide +kernel)⟩

end Translation

end NandTools
