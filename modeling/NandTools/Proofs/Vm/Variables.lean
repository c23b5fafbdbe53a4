import NandTools.Proofs.Vm.Statics

/-! The variables of a translation: which names they have, and how far they reach into the memory
where the stack begins. -/
namespace NandTools

/-- A name that does not begin as a number does. -/
def Worded (name : String) : Prop := (name.toList.head?.map Char.isDigit).getD false = false

theorem Worded.symbol? {name : String} (worded : Worded name) :
    (Instruction.address name).symbol? = some name := by
  rw [Instruction.symbol?, if_neg (by rw [worded]; exact Bool.false_ne_true)]

theorem Worded.of_symbol {name : String} (symbol : Instruction.isSymbol name.toList = true) :
    Worded name := Instruction.head_of_symbol symbol

theorem Worded.static {module : String} (worded : Worded module) (index : Nat) :
    Worded (staticName (module, index)) := by
  rw [Worded, toList_staticName]
  rw [Worded] at worded
  cases chars : module.toList with
  | nil => rfl
  | cons c rest =>
    rw [chars] at worded
    exact worded

namespace VmCommand

/-- The name that a command refers to, in a module and a function. -/
def mention? (module : String) (function? : Option String) : VmCommand → Option String
  | push .static index | pop .static index => some (staticName (module, index))
  | goto name | ifGoto name => some (Step.labelText (function?, name))
  | call name _ => some name
  | _ => none

end VmCommand

namespace Step

/-- The names that a session refers to. -/
def mentions (module : String) (function? : Option String) : List Step → List String
  | [] => []
  | .bootstrap :: rest => "Sys.init" :: mentions module function? rest
  | .module name :: rest => mentions name none rest
  | .command entry :: rest =>
    (entry.mention? module function?).toList ++ mentions module (entry.enters function?) rest

/-- Modules have worded names, and commands can be written. -/
def Fits : Step → Prop
  | .bootstrap => True
  | .module name => Worded name
  | .command entry => entry.Accepted

end Step

namespace CodeWriter

open Instruction (address)

/-- Whether an instruction refers to nothing but predefined symbols. -/
def isKnown (i : Instruction) : Bool :=
  i.symbol?.all fun name => (AssemblySymbols.predefined.map Prod.fst).contains name

section Known

theorem isKnown_number (n : Nat) : isKnown (address (toString n)) = true := by
  have numeral : ((toString n).toList.head?.map Char.isDigit).getD false = true := by
    cases chars : (toString n).toList with
    | nil => exact absurd chars (Text.toString_ne_nil n)
    | cons c rest => exact Text.isDigit_of_toString c (chars ▸ List.mem_cons_self)
  rw [isKnown, Instruction.symbol?, if_pos numeral]
  rfl

variable {module : String} {segment : Segment}

private theorem isKnown_base {base : String} (based : segment.base? = some base) :
    isKnown (address base) = true := by
  cases segment with
  | local_ | argument | this_ | that =>
    cases based
    decide
  | constant | temp | pointer | static => cases based

private theorem isKnown_direct (direct : segment.base? = none) (unnamed : segment ≠ .constant)
    (other : segment ≠ .static) (index : Nat) :
    isKnown (address (directAddress module segment index)) = true := by
  cases segment with
  | constant => exact absurd rfl unnamed
  | static => exact absurd rfl other
  | local_ | argument | this_ | that => cases direct
  | temp => exact isKnown_number _
  | pointer =>
    rw [directAddress]
    split <;> decide

theorem known_pushCode (other : segment ≠ .static) (index : Nat) :
    (pushCode module segment index).all isKnown = true := by
  have pushes : pushD.all isKnown = true := by decide
  have number := isKnown_number index
  cases based : segment.base? with
  | some base =>
    have first := isKnown_base based
    rw [pushCode_of_base? based, List.all_append, pushes, Bool.and_true]
    split <;> simp only [List.all_cons, first, number] <;> rfl
  | none =>
    by_cases constant : segment = .constant
    · subst constant
      have code : pushCode module .constant index =
          address (toString index) :: set "D" "A" :: pushD := rfl
      rw [code, List.all_cons, List.all_cons, pushes, number]
      rfl
    · rw [pushCode_of_direct based constant, List.all_cons, List.all_cons, pushes,
        isKnown_direct based constant other]
      rfl

theorem known_popCode (writable : segment ≠ .constant) (other : segment ≠ .static) (index : Nat) :
    (popCode module segment index).all isKnown = true := by
  have pops : popToD.all isKnown = true := by decide
  cases based : segment.base? with
  | some base =>
    have first := isKnown_base based
    have number := isKnown_number index
    have register : isKnown (address addressRegister) = true := by decide
    rw [popCode_of_base? based, List.all_append, List.all_append, List.all_append, pops]
    split <;> simp only [List.all_cons, first, number, register] <;> rfl
  | none =>
    rw [popCode_of_direct based, List.all_append, pops, List.all_cons,
      isKnown_direct based writable other]
    rfl

theorem known_functionCode (name : String) (locals : Nat) :
    (functionCode name locals).all isKnown = true := by
  have block : [address "SP", set "A" "M", set "M" "0", address "SP", set "M" "M+1"].all isKnown =
      true := by decide
  rw [functionCode, List.all_cons, Bool.and_eq_true]
  refine ⟨rfl, List.all_eq_true.mpr fun i member => ?_⟩
  obtain ⟨code, among, inside⟩ := List.mem_flatten.mp member
  rw [(List.mem_replicate.mp among).2] at inside
  exact List.all_eq_true.mp block i inside

end Known

/-- What instructions refer to, among the names that are free. -/
def usesOf (free : String → Bool) (code : List Instruction) : List String :=
  (code.filterMap Instruction.symbol?).filter free

section Uses

variable {free : String → Bool}

theorem usesOf_append (front back : List Instruction) :
    usesOf free (front ++ back) = usesOf free front ++ usesOf free back := by
  rw [usesOf, List.filterMap_append, List.filter_append]
  rfl

theorem usesOf_worded {name : String} (worded : Worded name) (rest : List Instruction) :
    usesOf free (address name :: rest) = [name].filter free ++ usesOf free rest := by
  rw [usesOf, List.filterMap_cons_some (worded.symbol? : (address name).symbol? = some name)]
  exact List.filter_append [name] _

/-- Names that are not free are passed over. -/
theorem usesOf_taken {name : String} (taken : free name = false) (rest : List Instruction) :
    usesOf free (address name :: rest) = usesOf free rest := by
  by_cases numeral : (name.toList.head?.map Char.isDigit).getD false = true
  · have unnamed : (address name).symbol? = none := if_pos numeral
    rw [usesOf, List.filterMap_cons_none unnamed]
    rfl
  · have found : (address name).symbol? = some name := if_neg numeral
    rw [usesOf, List.filterMap_cons_some found, List.filter_cons_of_neg (by simp [taken])]
    rfl

variable (known : ∀ name ∈ AssemblySymbols.predefined.map Prod.fst, free name = false)
include known

theorem usesOf_of_known {code : List Instruction} (each : code.all isKnown = true) :
    usesOf free code = [] := by
  refine List.filter_eq_nil_iff.mpr fun name member => ?_
  obtain ⟨i, among, found⟩ := List.mem_filterMap.mp member
  have listed := List.all_eq_true.mp each i among
  rw [isKnown, found] at listed
  rw [known name (by simpa using listed)]
  exact Bool.false_ne_true

theorem usesOf_known_append {front : List Instruction} (each : front.all isKnown = true)
    (back : List Instruction) : usesOf free (front ++ back) = usesOf free back := by
  rw [usesOf_append, usesOf_of_known known each, List.nil_append]

/-- Before known instructions, a name is referred to once. -/
theorem usesOf_last {name : String} {back : List Instruction} (worded : Worded name)
    (each : back.all isKnown = true) : usesOf free (address name :: back) = [name].filter free := by
  rw [usesOf_worded worded, usesOf_of_known known each, List.append_nil]

theorem usesOf_compare {name jump : String} {number : Nat}
    (declared : ∀ outcome ∈ outcomes name number, free outcome = false) :
    usesOf free (compare name jump number) = [] := by
  have code : compare name jump number = (popToD ++ [set "A" "A-1", set "D" "M-D"]) ++
      address s!"IS_{name}_{number}" :: (([goto "D" jump, address "SP", set "A" "M-1", set "M" "0"]) ++
        address s!"END_{name}_{number}" :: [goto "0" "JMP", .label s!"IS_{name}_{number}",
          address "SP", set "A" "M-1", set "M" "-1", .label s!"END_{name}_{number}"]) := rfl
  rw [code, usesOf_known_append known (by decide), usesOf_taken (declared _ List.mem_cons_self),
    usesOf_known_append known (by rfl),
    usesOf_taken (declared _ (List.mem_cons_of_mem _ List.mem_cons_self))]
  exact usesOf_of_known known rfl

theorem usesOf_callCode {returnLabel name : String} (args : Nat)
    (callee : Worded name) (declared : free returnLabel = false) :
    usesOf free (callCode returnLabel name args) = [name].filter free := by
  have code : callCode returnLabel name args = address returnLabel :: ((set "D" "A" :: pushD ++
      ["LCL", "ARG", "THIS", "THAT"].flatMap fun register =>
        [address register, set "D" "M"] ++ pushD) ++ ([address "SP", set "D" "M",
          address (toString (args + 5)), set "D" "D-A", address "ARG", set "M" "D", address "SP",
          set "D" "M", address "LCL", set "M" "D"] ++
        address name :: [goto "0" "JMP", .label returnLabel])) := rfl
  have frame : [address "SP", set "D" "M", address (toString (args + 5)), set "D" "D-A",
      address "ARG", set "M" "D", address "SP", set "D" "M", address "LCL", set "M" "D"].all
        isKnown = true := by
    simp only [List.all_cons, isKnown_number]
    decide
  rw [code, usesOf_taken declared, usesOf_known_append known (by decide),
    usesOf_known_append known frame]
  exact usesOf_last known callee rfl

end Uses

/-- The code of a command refers to what the command mentions, when nothing that is predefined or
that it declares is free. -/
theorem usesOf_code {w : CodeWriter} (ready : w.Ready Worded) {command : VmCommand}
    (accepted : command.Accepted) {free : String → Bool}
    (known : ∀ name ∈ AssemblySymbols.predefined.map Prod.fst, free name = false)
    (declared : ∀ name ∈ (w.code command).filterMap Instruction.declared?, free name = false) :
    usesOf free (w.code command) = (command.mention? w.module w.function?).toList.filter free := by
  cases command with
  | push segment index =>
    by_cases named : segment = .static
    · subst named
      exact usesOf_last known (ready.module.static index) (by decide)
    · rw [code, usesOf_of_known known (known_pushCode named index)]
      cases segment <;> first | rfl | exact absurd rfl named
  | pop segment index =>
    by_cases named : segment = .static
    · subst named
      exact (usesOf_known_append known (by decide) _).trans
        (usesOf_last known (ready.module.static index) (by decide))
    · rw [code, usesOf_of_known known (known_popCode accepted.1 named index)]
      cases segment <;> first | rfl | exact absurd rfl named
  | arithmetic operation =>
    cases operation with
    | eq => exact usesOf_compare known declared
    | gt => exact usesOf_compare known declared
    | lt => exact usesOf_compare known declared
    | _ => exact usesOf_of_known known rfl
  | label name => exact usesOf_of_known known rfl
  | goto name =>
    have worded := Worded.of_symbol (isSymbol_localLabel ready.function accepted)
    rw [code, usesOf_last known worded rfl, localLabel_eq]
    rfl
  | ifGoto name =>
    have worded := Worded.of_symbol (isSymbol_localLabel ready.function accepted)
    rw [code, usesOf_known_append known (by decide), usesOf_last known worded rfl, localLabel_eq]
    rfl
  | function name locals => exact usesOf_of_known known (known_functionCode name locals)
  | call name args =>
    exact usesOf_callCode known args (.of_symbol accepted.1) (declared _ List.mem_cons_self)
  | return_ => exact usesOf_of_known known (show returnCode.all isKnown = true by decide)

theorem module_pass (w : CodeWriter) (command : VmCommand) : (w.pass command).module = w.module := by
  cases command with
  | arithmetic operation => cases operation <;> rfl
  | _ => rfl

theorem function?_pass (w : CodeWriter) (command : VmCommand) :
    (w.pass command).function? = command.enters w.function? := by
  cases command with
  | arithmetic operation => cases operation <;> rfl
  | _ => rfl

theorem instructions_of_bootstrapLines (w : CodeWriter) :
    w.bootstrapLines.filterMap AssemblyLine.instruction? =
      [address (toString Limits.stackBase), set "D" "A", address "SP", set "M" "D"] ++
        w.code (.call "Sys.init" 0) := by
  rw [bootstrapLines]
  split <;> rfl

/-- What a session refers to is what its commands mention, when nothing that is predefined or that it
declares is free. -/
theorem usesOf_listing {w : CodeWriter} (ready : w.Ready Worded) {steps : List Step}
    (fits : ∀ step ∈ steps, step.Fits) {free : String → Bool}
    (known : ∀ name ∈ AssemblySymbols.predefined.map Prod.fst, free name = false)
    (declared : ∀ name ∈ w.declared steps, free name = false) :
    usesOf free ((w.listing steps).filterMap AssemblyLine.instruction?) =
      (Step.mentions w.module w.function? steps).filter free := by
  induction steps generalizing w with
  | nil => rfl
  | cons step rest ih =>
    have later := fun other member => fits other (List.mem_cons_of_mem step member)
    rw [listing, List.filterMap_append, usesOf_append]
    cases step with
    | bootstrap =>
      rw [declared_bootstrap, List.forall_mem_cons] at declared
      have setup : [address (toString Limits.stackBase), set "D" "A", address "SP",
          set "M" "D"].all isKnown = true := by
        simp only [List.all_cons, isKnown_number]
        decide
      have entry : (VmCommand.call "Sys.init" 0).Accepted :=
        ⟨show Instruction.isSymbol "Sys.init".toList = true by decide, Nat.zero_le _⟩
      have called : usesOf free (w.code (.call "Sys.init" 0)) = ["Sys.init"].filter free :=
        usesOf_callCode known 0 (show Worded "Sys.init" from rfl) declared.1
      rw [stepLines, instructions_of_bootstrapLines, usesOf_known_append known setup, called, after,
        ih (ready.pass entry) later declared.2]
      exact (List.filter_append ["Sys.init"] _).symm
    | module name =>
      have ready' : (w.setModule name).Ready Worded := by
        refine ⟨fits _ List.mem_cons_self, ?_⟩
        intro function inside
        cases inside
      exact ih ready' later declared
    | command command =>
      have accepted : command.Accepted := fits (.command command) List.mem_cons_self
      rw [declared_command, List.forall_mem_append] at declared
      rw [stepLines, instructions_of_lines, usesOf_code ready accepted known declared.1,
        Step.mentions, List.filter_append, after, ih (ready.pass accepted) later declared.2,
        module_pass, function?_pass]

end CodeWriter

namespace Step

theorem fits_ofModules {modules : List (String × List Char)}
    (named : ∀ module ∈ modules, Worded module.1) (bootstrap : Bool) :
    ∀ step ∈ ofModules modules bootstrap, step.Fits := by
  intro step member
  rcases List.mem_append.mp member with first | later
  · cases bootstrap with
    | false => cases first
    | true =>
      rw [List.mem_singleton.mp first]
      trivial
  · obtain ⟨module, among, inside⟩ := List.mem_flatMap.mp later
    rcases List.mem_cons.mp inside with rfl | command
    · exact named module among
    · obtain ⟨entry, read, rfl⟩ := List.mem_map.mp command
      exact VmCommand.accepted_of_mem_ofSource read

end Step

namespace Translation

/-- The names of a session's variables: what it mentions but neither declares nor finds predefined. -/
def variableNames (annotate : Bool) (steps : List Step) : List String :=
  (Step.mentions "" none steps).filter fun name =>
    (AssemblySymbols.predefined.lookup name).isNone &&
      !(CodeWriter.declared { annotate } steps).contains name

theorem variableUses_code {modules : List (String × List Char)}
    (named : ∀ module ∈ modules, Worded module.1) (bootstrap annotate : Bool) :
    Instruction.variableUses (code annotate (Step.ofModules modules bootstrap)) =
      variableNames annotate (Step.ofModules modules bootstrap) := by
  have free : (fun name => (AssemblySymbols.predefined.lookup name).isNone &&
      !(code annotate (Step.ofModules modules bootstrap)).contains (.label name)) = fun name =>
        (AssemblySymbols.predefined.lookup name).isNone &&
          !(CodeWriter.declared { annotate } (Step.ofModules modules bootstrap)).contains name := by
    funext name
    rw [Bool.eq_iff_iff]
    simp only [Bool.and_eq_true, Bool.not_eq_true', List.contains_eq_mem, decide_eq_false_iff_not,
      mem_code_iff]
  have ready : CodeWriter.Ready Worded { annotate } := ⟨show Worded "" from rfl, nofun⟩
  rw [Instruction.variableUses, free]
  refine CodeWriter.usesOf_listing ready (Step.fits_ofModules named bootstrap) ?_ ?_
  · intro name listed
    obtain ⟨entry, among, rfl⟩ := List.mem_map.mp listed
    rw [AssemblySymbols.lookup_predefined.mpr (AssemblySymbols.bindings_of_predefined among)]
    rfl
  · intro name declared
    simp [declared]

section Accepted

variable {modules : List (String × List Char)} {bootstrap annotate : Bool}
  {translation : Translation} {assembly : Assembly} {symbols : AssemblySymbols}
  (accepted : (Translation.ofModules modules bootstrap annotate).1 = .ok translation)
  (assembled : Assembly.assemble .initial translation.assembly.toList = (.ok assembly, symbols))
include accepted assembled

/-- A variable has the cell that the order of the names gives it. -/
private theorem cell?_iff_ordinal
    (named : ∀ module ∈ modules, Instruction.isSymbol module.1.toList = true) :
    let names := variableNames annotate (Step.ofModules modules bootstrap)
    assembly.stats.variableCount = names.eraseDups.length ∧
      ∀ name cell, symbols.cell? name = some cell ↔
        name ∈ names ∧ cell = Limits.variableBase + Instruction.ordinal names name := by
  obtain ⟨program, parsed, same⟩ := parsed_assembly named accepted
  have uses := variableUses_code (fun module member => Worded.of_symbol (named module member))
    bootstrap annotate
  rw [← same] at uses
  rw [← uses]
  exact ⟨Assembly.variableCount_of_assemble assembled parsed,
    fun name cell => Assembly.cell?_iff assembled parsed⟩

/-- The variables of a translation have the cells from the first one on, in the order of their names.
They stay below the stack just when there are no more of them than cells. -/
theorem below_stack_iff :
    symbols.Fills assembly.stats.variableCount ∧
      ((∀ name cell, symbols.cell? name = some cell → cell < Limits.stackBase) ↔
        assembly.stats.variableCount ≤ Limits.stackBase - Limits.variableBase) ∧
      ((∀ module ∈ modules, Instruction.isSymbol module.1.toList = true) →
        let names := variableNames annotate (Step.ofModules modules bootstrap)
        assembly.stats.variableCount = names.eraseDups.length ∧
          ∀ name cell, symbols.cell? name = some cell ↔
            name ∈ names ∧ cell = Limits.variableBase + Instruction.ordinal names name) := by
  obtain ⟨program, _, parsed, _⟩ := Assembly.passes_of_assemble assembled
  have fills := Assembly.fills_of_assemble assembled parsed
  exact ⟨fills, fills.below_iff (by decide), cell?_iff_ordinal accepted assembled⟩

end Accepted

/-- A function that pushes so many static variables. -/
def pushing (count : Nat) : List Char :=
  "function Sys.init 0\n".toList ++ (List.range count).flatMap fun index =>
    "push static ".toList ++ (Nat.toDigits 10 index ++ ['\n'])

section Pushing

/-- The session of a function that pushes static variables, after the code that begins a program. -/
private def pushSteps (count : Nat) : List Step :=
  .bootstrap :: .module "Sys" :: .command (.function "Sys.init" 0) ::
    (List.range count).map fun index => .command (.push .static index)

private theorem mentions_pushSteps (count : Nat) : Step.mentions "" none (pushSteps count) =
    "Sys.init" :: (List.range count).map fun index => staticName ("Sys", index) := by
  refine congrArg ("Sys.init" :: ·) ?_
  change Step.mentions "Sys" (some "Sys.init") _ = _
  induction List.range count with
  | nil => rfl
  | cons index rest ih => exact congrArg (staticName ("Sys", index) :: ·) ih

private theorem declared_pushSteps (count : Nat) :
    CodeWriter.declared { annotate := false } (pushSteps count) = ["bootstrap$ret.0", "Sys.init"] := by
  have pushes (w : CodeWriter) (indexes : List Nat) :
      w.declared (indexes.map fun index => .command (.push .static index)) = [] := by
    induction indexes generalizing w with
    | nil => rfl
    | cons index rest ih =>
      rw [List.map_cons, CodeWriter.declared_command, CodeWriter.code,
        CodeWriter.declared_pushCode, ih, List.nil_append]
  rw [pushSteps, CodeWriter.declared_bootstrap, CodeWriter.declared_cons,
    CodeWriter.declared_command, pushes]
  decide

private theorem variableNames_pushSteps (count : Nat) : variableNames false (pushSteps count) =
    (List.range count).map fun index => staticName ("Sys", index) := by
  rw [variableNames, mentions_pushSteps, declared_pushSteps, List.filter_cons_of_neg (by decide),
    List.filter_eq_self]
  intro name member
  obtain ⟨index, _, rfl⟩ := List.mem_map.mp member
  have other : staticName ("Sys", index) ≠ "bootstrap$ret.0" := by
    intro same
    have statics : ("Sys", index) = ("bootstrap$ret", 0) := staticName_injective same
    exact absurd (Prod.mk.inj statics).1 (by decide)
  have entry : staticName ("Sys", index) ≠ "Sys.init" := by
    intro same
    have letter : 'i' ∈ (staticName ("Sys", index)).toList := by
      rw [same]
      decide
    rw [toList_staticName, List.mem_append, List.mem_cons] at letter
    rcases letter with front | mark | digit
    · exact absurd front (show 'i' ∉ "Sys".toList by decide)
    · cases mark
    · exact Text.not_mem_toString 'i' (by decide) index digit
  have unlisted : AssemblySymbols.predefined.lookup (staticName ("Sys", index)) = none := by
    refine Option.eq_none_iff_forall_not_mem.mpr fun address listed => ?_
    have bound := AssemblySymbols.lookup_predefined.mp listed
    rw [AssemblySymbols.unbound_of_mark (dotted_staticName _) (by decide)] at bound
    cases bound
  simp [unlisted, other, entry]

/-- The last of the variables that are pushed has a cell after all others. -/
private theorem ordinal_pushSteps {count last : Nat} (next : count = last + 1) :
    Instruction.ordinal (variableNames false (pushSteps count)) (staticName ("Sys", last)) = last := by
  subst next
  have injective : Function.Injective fun index => staticName ("Sys", index) := by
    intro index index' same
    exact (Prod.mk.inj (staticName_injective same)).2
  have new : staticName ("Sys", last) ∉
      (List.range last).map fun index => staticName ("Sys", index) := by
    intro member
    obtain ⟨index, inside, same⟩ := List.mem_map.mp member
    rw [injective same] at inside
    exact Nat.lt_irrefl _ (List.mem_range.mp inside)
  rw [variableNames_pushSteps, List.range_succ, List.map_append]
  refine (Instruction.ordinal_new new).trans ?_
  rw [Instruction.distinct_eq_self (List.nodup_range.map injective), List.length_map,
    List.length_range]

private theorem named_sys (source : List Char) :
    ∀ module ∈ [("Sys", source)], Instruction.isSymbol module.1.toList = true :=
  List.forall_mem_singleton.mpr (show Instruction.isSymbol "Sys".toList = true by decide)

/-- A translation of the session is assembled when it is short. -/
private theorem assembled_pushSteps {count : Nat} {source : List Char} {translation : Translation}
    (session : Step.ofModules [("Sys", source)] true = pushSteps count)
    (accepted : (Translation.ofModules [("Sys", source)] true false).1 = .ok translation)
    (short : (code false (pushSteps count)).length ≤ Limits.screen - Limits.variableBase) :
    ∃ assembly symbols,
      Assembly.assemble .initial translation.assembly.toList = (.ok assembly, symbols) := by
  have named := named_sys source
  have legal : (code false (Step.ofModules [("Sys", source)] true)).all Instruction.isLegal =
      true := by
    refine List.all_eq_true.mpr fun i member => Bool.ne_false_iff.mp fun illegal => ?_
    obtain ⟨name, args, call, _⟩ := size_of_not_legal named member illegal
    have step : .command (.call name args) ∈ pushSteps count := by
      rw [← session]
      exact List.mem_append_right _ (VmCommand.mem_ofModules.mp call)
    simp [pushSteps] at step
  rw [← session] at short
  have declared := declared_pushSteps count
  rw [← session] at declared
  refine assembled_of_short named accepted short legal ?_ ?_
  · rw [declared]
    decide
  · rw [declared]
    decide +kernel

/-- The function is translated when it can be read. -/
private theorem translated_pushing {count : Nat} (few : count < Limits.vmCommands)
    (parsed : (VmCommand.parseProgram (pushing count)).toOption.map (·.map Prod.snd) =
      some (.function "Sys.init" 0 :: (List.range count).map (.push .static))) :
    Step.ofModules [("Sys", pushing count)] true = pushSteps count ∧
      ∃ translation,
        (Translation.ofModules [("Sys", pushing count)] true false).1 = .ok translation := by
  obtain ⟨program, read, commands⟩ := Option.map_eq_some_iff.mp parsed
  have parsed := Except.ok_of_toOption read
  have size : program.length = count + 1 := by
    have lengths := congrArg List.length commands
    simpa using lengths
  constructor
  · rw [Step.ofModules, List.flatMap_singleton, Step.ofModule, VmCommand.ofSource, parsed]
    dsimp only
    rw [commands, List.map_cons, List.map_map]
    rfl
  · have written := Translator.writeAll_eq
      { (Translator.ofAnnotate false).writeBootstrap with
        writer := (Translator.ofAnnotate false).writeBootstrap.writer.setModule "Sys" }
      (VmCommand.accepted_of_parseProgram parsed)
    have room : ¬ program.length > Limits.vmCommands := by omega
    unfold Translation.ofModules
    simp only [if_true, Translator.addModules, Translator.addModule, parsed, if_neg room, written]
    exact ⟨_, rfl⟩

end Pushing

theorem below_stack_of_statics : ∃ translation assembly symbols,
    (Translation.ofModules [("Sys", pushing 3)] true false).1 = .ok translation ∧
      Assembly.assemble .initial translation.assembly.toList = (.ok assembly, symbols) ∧
        assembly.stats.variableCount = 3 ∧
          ∀ name cell, symbols.cell? name = some cell → cell < Limits.stackBase := by
  obtain ⟨session, translation, accepted⟩ :=
    translated_pushing (show 3 < Limits.vmCommands by decide) (by decide +kernel)
  obtain ⟨assembly, symbols, assembled⟩ := assembled_pushSteps session accepted (by decide +kernel)
  obtain ⟨_, below, names⟩ := below_stack_iff accepted assembled
  have count : assembly.stats.variableCount = 3 := by
    obtain ⟨counted, _⟩ := names (named_sys _)
    rw [counted, session]
    decide +kernel
  refine ⟨translation, assembly, symbols, accepted, assembled, count, below.mpr ?_⟩
  rw [count]
  decide

/-- The 241st static variable has the first cell of the stack. -/
theorem static_in_stack : ∃ translation assembly symbols,
    (Translation.ofModules [("Sys", pushing 241)] true false).1 = .ok translation ∧
      Assembly.assemble .initial translation.assembly.toList = (.ok assembly, symbols) ∧
        symbols.cell? "Sys.240" = some Limits.stackBase := by
  obtain ⟨session, translation, accepted⟩ :=
    translated_pushing (show 241 < Limits.vmCommands by decide) (by decide +kernel)
  obtain ⟨assembly, symbols, assembled⟩ := assembled_pushSteps session accepted (by decide +kernel)
  obtain ⟨_, cells⟩ := cell?_iff_ordinal accepted assembled (named_sys _)
  have last : "Sys.240" = staticName ("Sys", 240) := by decide +kernel
  refine ⟨translation, assembly, symbols, accepted, assembled, ?_⟩
  rw [last, cells, session]
  constructor
  · rw [variableNames_pushSteps]
    exact List.mem_map_of_mem (List.mem_range.mpr (by decide))
  · rw [ordinal_pushSteps (show 241 = 240 + 1 from rfl)]
    rfl

end Translation

end NandTools
