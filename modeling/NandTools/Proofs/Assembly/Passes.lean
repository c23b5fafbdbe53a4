import NandTools.Proofs.Assembly.Addresses
import NandTools.Proofs.Assembly.Phrase
import NandTools.Proofs.Assembly.Reading

/-! Why a pass over a program stops, and what is known of a program when it does not. -/
namespace NandTools

theorem Instruction.label_of_declared {i : Instruction} {name : String}
    (declared : i.declared? = some name) : i = .label name := by
  cases i with
  | label other =>
    cases declared
    rfl
  | address value => cases declared
  | compute dest comp jump => cases declared

namespace AssemblySymbols

/-- Labels are bound for declarations with their lines, and predefined symbols as they are listed. -/
structure BoundBy (symbols : AssemblySymbols) (passed : Assembly.Program) : Prop where
  label : ∀ {name : String} {address line : Nat},
    symbols.bindings[name]? = some (.label address line) → (line, .label name) ∈ passed
  bound : ∀ {name : String}, .label name ∈ passed.map Prod.snd →
    ∃ address line, symbols.bindings[name]? = some (.label address line)
  predefined : ∀ {name : String} {address : Nat},
    symbols.bindings[name]? = some (.predefined address) → (name, address) ∈ predefined

theorem boundBy_initial : initial.BoundBy [] where
  label bound := by
    obtain ⟨_, same, _⟩ := predefined_of_bindings bound
    cases same
  bound := nofun
  predefined bound := by
    obtain ⟨_, same, listed⟩ := predefined_of_bindings bound
    cases same
    exact listed

namespace BoundBy

variable {symbols more : AssemblySymbols} {passed : Assembly.Program} {name : String}
  {address line : Nat} (known : symbols.BoundBy passed)
include known

theorem skip {i : Instruction} (other : i.isLabel = false) (line : Nat) :
    symbols.BoundBy (passed ++ [(line, i)]) where
  label bound := List.mem_append_left _ (known.label bound)
  bound declared := by
    rw [List.map_append, List.mem_append, List.map_singleton, List.mem_singleton] at declared
    refine known.bound (declared.resolve_right ?_)
    rintro rfl
    cases other
  predefined bound := known.predefined bound

theorem defineLabel (defined : symbols.defineLabel name address line = .ok more) :
    more.BoundBy (passed ++ [(line, .label name)]) where
  label bound := by
    rcases bindings_of_defineLabel defined bound with before | ⟨rfl, same⟩
    · exact List.mem_append_left _ (known.label before)
    · cases same
      exact List.mem_append_right _ List.mem_cons_self
  bound declared := by
    rw [(of_defineLabel defined).2.1, Std.HashMap.getElem?_insert]
    split
    · exact ⟨address, line, rfl⟩
    · next different =>
      rw [List.map_append, List.mem_append, List.map_singleton, List.mem_singleton] at declared
      refine known.bound (declared.resolve_right ?_)
      rintro ⟨⟩
      exact different (beq_self_eq_true _)
  predefined bound := by
    rcases bindings_of_defineLabel defined bound with before | ⟨_, same⟩
    · exact known.predefined before
    · cases same

theorem new_of_defineLabel (defined : symbols.defineLabel name address line = .ok more) :
    .label name ∉ passed.map Prod.snd := by
  intro member
  obtain ⟨_, _, bound⟩ := known.bound member
  rcases (of_defineLabel defined).1 with unbound | ⟨_, allocated⟩
  · cases bound.symm.trans unbound
  · cases bound.symm.trans allocated

end BoundBy

end AssemblySymbols

namespace Assembly

open AssemblySymbols (Allocated)
open Instruction (Refused)

/-- Why the labels of a program are not bound. -/
inductive Unbound (program : Program) : AssemblyError → Prop
  | rom (large : Limits.romWords < Instruction.size (program.map Prod.snd)) :
    Unbound program (.romOverflow Limits.romWords)
  | predefined {line : Nat} {name : String} (declared : (line, .label name) ∈ program)
    (listed : name ∈ AssemblySymbols.predefined.map Prod.fst) :
    Unbound program (.malformedLabel s!"({name})" line)
  | duplicate {front back : Program} {first line : Nat} {name : String}
    (divided : program = front ++ (line, .label name) :: back)
    (before : (first, .label name) ∈ front) : Unbound program (.duplicateLabel name line first)

/-- The symbols of a program that the first pass leaves to the second. -/
def left (labelled : AssemblySymbols) (program : Program) : List String :=
  ((program.map Prod.snd).filterMap Instruction.symbol?).filter labelled.leaves

section Passes

variable {symbols more labelled : AssemblySymbols} {passed program : Program} {e : AssemblyError}

private theorem unbound_of_defineLabel {address line : Nat} {name : String}
    (known : symbols.BoundBy passed) (failed : symbols.defineLabel name address line = .error e)
    (rest : Program) : Unbound (passed ++ (line, .label name) :: rest) e := by
  unfold AssemblySymbols.defineLabel at failed
  split at failed
  · next bound =>
    cases failed
    exact .duplicate rfl (known.label bound)
  · next bound =>
    cases failed
    have listed := List.mem_map_of_mem (f := Prod.fst) (known.predefined bound)
    exact .predefined (List.mem_append_right _ List.mem_cons_self) listed
  · cases failed

theorem unbound_of_bindLabels (known : symbols.BoundBy passed)
    (inside : Instruction.size (passed.map Prod.snd) ≤ Limits.romWords)
    (failed : bindLabels (Instruction.size (passed.map Prod.snd)) symbols program = (.error e, more)) :
    Unbound (passed ++ program) e := by
  induction program generalizing passed symbols with
  | nil => cases failed
  | cons entry rest ih =>
    obtain ⟨line, i⟩ := entry
    have size : Instruction.size ((passed ++ [(line, i)]).map Prod.snd) =
        Instruction.size (passed.map Prod.snd) + Instruction.size [i] := by
      rw [List.map_append, Instruction.size_append]
      rfl
    rw [List.append_cons]
    rcases i.label_or with ⟨name, rfl⟩ | other
    · rw [Instruction.size_label] at size
      rw [bindLabels, if_neg (Nat.not_lt_of_le inside)] at failed
      split at failed
      · next refused =>
        cases failed
        rw [← List.append_cons]
        exact unbound_of_defineLabel known refused rest
      · next defined found =>
        refine ih (known.defineLabel found) (Nat.le_trans (Nat.le_of_eq size) inside) ?_
        rw [size]
        exact failed
    · rw [Instruction.size_other other] at size
      rw [bindLabels_other other] at failed
      split at failed
      · next full =>
        cases failed
        refine .rom ?_
        rw [List.map_append, Instruction.size_append, size]
        exact Nat.lt_of_lt_of_le full (Nat.le_add_right _ _)
      · next room =>
        refine ih (known.skip other line) (Nat.le_trans (Nat.le_of_eq size) (Nat.le_of_not_lt room)) ?_
        rw [size]
        exact failed

/-- Labels are bound only when they differ. -/
theorem boundBy_of_bindLabels {address : Nat} (known : symbols.BoundBy passed)
    (distinct : ((passed.map Prod.snd).filterMap Instruction.declared?).Nodup)
    (bound : bindLabels address symbols program = (.ok (), more)) :
    more.BoundBy (passed ++ program) ∧
      (((passed ++ program).map Prod.snd).filterMap Instruction.declared?).Nodup := by
  induction program generalizing address passed symbols with
  | nil =>
    cases bound
    rw [List.append_nil]
    exact ⟨known, distinct⟩
  | cons entry rest ih =>
    obtain ⟨line, i⟩ := entry
    rw [List.append_cons]
    rcases i.label_or with ⟨name, rfl⟩ | other
    · obtain ⟨defined, _, found, bound⟩ := bindLabels_label bound
      refine ih (known.defineLabel found) ?_ bound
      rw [List.map_append, List.filterMap_append]
      refine List.nodup_append.mpr ⟨distinct, List.pairwise_singleton _ _, ?_⟩
      rintro _ member _ last rfl
      obtain ⟨i, declared, same⟩ := List.mem_filterMap.mp member
      obtain rfl := Instruction.label_of_declared same
      cases List.mem_singleton.mp last
      exact known.new_of_defineLabel found declared
    · rw [bindLabels_other other] at bound
      split at bound
      · cases bound
      · refine ih (known.skip other line) ?_ bound
        rw [List.map_append, List.filterMap_append]
        simpa [Instruction.declared?_eq_none other] using distinct

section Initial

variable {labelled : AssemblySymbols}

/-- The first pass refuses a program of its own for its labels or its length. -/
theorem unbound_of_initial (failed : bindLabels 0 .initial program = (.error e, labelled)) :
    Unbound program e :=
  unbound_of_bindLabels AssemblySymbols.boundBy_initial (Nat.zero_le _) failed

variable (bound : bindLabels 0 .initial program = (.ok (), labelled))
include bound

theorem nodup_of_bindLabels : ((program.map Prod.snd).filterMap Instruction.declared?).Nodup :=
  (boundBy_of_bindLabels AssemblySymbols.boundBy_initial .nil bound).2

/-- What the first pass binds is not predefined. -/
theorem new_of_bindLabels {name : String} (declared : .label name ∈ program.map Prod.snd) :
    name ∉ AssemblySymbols.predefined.map Prod.fst := by
  intro listed
  have known := (boundBy_of_bindLabels AssemblySymbols.boundBy_initial .nil bound).1
  obtain ⟨_, _, label⟩ := known.bound declared
  obtain ⟨⟨_, address⟩, member, rfl⟩ := List.mem_map.mp listed
  have extended := (placed_of_bindLabels AssemblySymbols.cell?_initial bound).1
  have kept := extended _ _ (AssemblySymbols.bindings_of_predefined member)
  cases label.symm.trans kept

theorem left_of_bindLabels :
    left labelled program = Instruction.variableUses (program.map Prod.snd) :=
  List.filter_congr fun name _ => leaves_of_bindLabels bound name

end Initial

/-- What the second pass writes is legal. -/
theorem legal_of_encode {words written : Array String}
    (labels : ∀ i ∈ program.map Prod.snd, i.isLabel = true → i.isLegal = true)
    (encoded : encode words symbols program = (.ok written, more)) :
    ∀ i ∈ program.map Prod.snd, i.isLegal = true := by
  induction program generalizing words symbols with
  | nil => exact nofun
  | cons entry rest ih =>
    obtain ⟨line, i⟩ := entry
    rw [List.map_cons, List.forall_mem_cons] at labels ⊢
    cases i with
    | label name => exact ⟨labels.1 rfl, ih labels.2 encoded⟩
    | address value =>
      rw [encode] at encoded
      split at encoded
      · cases encoded
      · next resolved => exact ⟨legal_of_addressOf resolved, ih labels.2 encoded⟩
    | compute dest comp jump =>
      rw [encode] at encoded
      split at encoded
      · cases encoded
      · next computed => exact ⟨legal_of_computeWord computed, ih labels.2 encoded⟩

/-- A symbol has no cell when all of them are taken by others. -/
theorem full_of_resolve {uses : List String} {name : String}
    (allocated : Allocated labelled symbols uses) (failed : symbols.resolve name = .error e) :
    (∃ address, e = .ramExhausted name address) ∧ labelled.leaves name = true ∧
      Limits.screen - Limits.variableBase < (uses ++ [name]).eraseDups.length := by
  unfold AssemblySymbols.resolve at failed
  split at failed
  · cases failed
  · next unbound =>
    dsimp only at failed
    split at failed
    · next full =>
      cases failed
      have left : labelled.bindings[name]? = none := by
        refine Option.eq_none_iff_forall_not_mem.mpr fun binding bound => ?_
        exact absurd (unbound.symm.trans (allocated.kept name binding bound)) nofun
      have unused : name ∉ uses := by
        intro used
        have bound := allocated.fresh left
        rw [unbound, if_pos used] at bound
        cases bound
      refine ⟨⟨_, rfl⟩, Option.isNone_iff_eq_none.mpr left, ?_⟩
      rw [Instruction.distinct_append_new unused, List.length_append, ← allocated.cells,
        List.length_singleton]
      omega
    · cases failed

private theorem left_cons (labelled : AssemblySymbols) (entry : Nat × Instruction)
    (program : Program) : left labelled (entry :: program) =
      (entry.2.symbol?.toList.filter labelled.leaves) ++ left labelled program := by
  rw [left, List.map_cons, List.filterMap_cons]
  cases entry.2.symbol? with
  | none => rfl
  | some name => exact List.filter_append [name] _

private theorem allocated_of_addressOf {uses : List String} {value : String} {line address : Nat}
    (allocated : Allocated labelled symbols uses)
    (found : addressOf symbols value line = .ok (address, more)) :
    Allocated labelled more
      (uses ++ (Instruction.address value).symbol?.toList.filter labelled.leaves) := by
  rcases of_addressOf found with ⟨unnamed, rfl, _⟩ | ⟨symbol, resolved⟩
  · rw [unnamed]
    simpa using allocated
  · rw [Instruction.symbol?_of_symbol symbol]
    cases leaves : labelled.leaves value with
    | false => simpa [leaves] using allocated.resolve_kept leaves resolved
    | true => simpa [leaves] using allocated.resolve_fresh leaves resolved

private theorem distinct_le (uses more : List String) :
    uses.eraseDups.length ≤ (uses ++ more).eraseDups.length := by
  rw [List.eraseDups_append, List.length_append]
  exact Nat.le_add_right _ _

/-- An instruction is not encoded for its parts or because there are too many variables. -/
theorem refused_of_encode {words : Array String} {uses : List String}
    (allocated : Allocated labelled symbols uses)
    (failed : encode words symbols program = (.error e, more)) :
    (∃ line i, (line, i) ∈ program ∧ Refused line i e) ∨
      (∃ name address, e = .ramExhausted name address) ∧ Limits.screen - Limits.variableBase <
        (uses ++ left labelled program).eraseDups.length := by
  induction program generalizing words symbols uses with
  | nil => cases failed
  | cons entry rest ih =>
    obtain ⟨line, i⟩ := entry
    rw [left_cons, ← List.append_assoc]
    have later {words : Array String} {symbols : AssemblySymbols}
        (allocated : Allocated labelled symbols (uses ++ i.symbol?.toList.filter labelled.leaves))
        (failed : encode words symbols rest = (.error e, more)) :
        (∃ number j, (number, j) ∈ (line, i) :: rest ∧ Refused number j e) ∨
          (∃ name address, e = .ramExhausted name address) ∧ Limits.screen - Limits.variableBase <
            (uses ++ i.symbol?.toList.filter labelled.leaves ++ left labelled rest).eraseDups.length := by
      refine (ih allocated failed).imp_left ?_
      rintro ⟨number, j, member, refused⟩
      exact ⟨number, j, List.mem_cons_of_mem _ member, refused⟩
    have unchanged (unnamed : i.symbol? = none) :
        Allocated labelled symbols (uses ++ i.symbol?.toList.filter labelled.leaves) := by
      rw [unnamed]
      simpa using allocated
    cases i with
    | label name => exact later (unchanged rfl) failed
    | address value =>
      rw [encode] at failed
      split at failed
      · next refused =>
        cases failed
        rcases refused_of_addressOf refused with refused | ⟨symbol, unresolved⟩
        · exact .inl ⟨line, _, List.mem_cons_self, refused⟩
        · obtain ⟨⟨address, same⟩, leaves, many⟩ := full_of_resolve allocated unresolved
          have kept : (Instruction.address value).symbol?.toList.filter labelled.leaves = [value] := by
            rw [Instruction.symbol?_of_symbol symbol]
            exact List.filter_cons_of_pos leaves
          rw [kept]
          exact .inr ⟨⟨value, address, same⟩, Nat.lt_of_lt_of_le many (distinct_le _ _)⟩
      · next found => exact later (allocated_of_addressOf allocated found) failed
    | compute dest comp jump =>
      rw [encode] at failed
      split at failed
      · next refused =>
        cases failed
        exact .inl ⟨line, _, List.mem_cons_self, refused_of_computeWord refused⟩
      · exact later (unchanged rfl) failed

end Passes

/-- Labels that are new and differ, and room for the program in both memories. -/
structure Fits (code : List Instruction) : Prop where
  new : ∀ name, .label name ∈ code → name ∉ AssemblySymbols.predefined.map Prod.fst
  distinct : (code.filterMap Instruction.declared?).Nodup
  short : Instruction.size code ≤ Limits.romWords
  few : (Instruction.variableUses code).eraseDups.length ≤ Limits.screen - Limits.variableBase

section Program

variable {source : List Char} {program : Program}
  (parsed : Instruction.parseProgram source = .ok program)
include parsed

theorem fits_of_assemble {assembly : Assembly} {symbols : AssemblySymbols}
    (assembled : assemble .initial source = (.ok assembly, symbols)) :
    Fits (program.map Prod.snd) := by
  obtain ⟨_, labelled, read, bound, _⟩ := passes_of_assemble assembled
  cases parsed.symm.trans read
  constructor
  case new => exact fun _ => new_of_bindLabels bound
  case distinct => exact nodup_of_bindLabels bound
  case short => exact size_of_assemble assembled parsed
  case few =>
    have below := (fills_of_assemble assembled parsed).below
    rw [variableCount_of_assemble assembled parsed] at below
    omega

/-- Legal programs that fit are assembled. -/
theorem assemble_of_fits (legal : ∀ i ∈ program.map Prod.snd, i.isLegal = true)
    (fits : Fits (program.map Prod.snd)) :
    ∃ assembly, (assemble .initial source).1 = .ok assembly := by
  obtain ⟨labelled, bound, count⟩ := bindLabels_ok 0
    (fun name declared => AssemblySymbols.bindings_of_not_predefined (fits.new name declared))
    fits.distinct (by simpa using fits.short)
  cases encoded : encode #[] labelled program with
  | mk result symbols =>
    cases result with
    | ok words =>
      rw [assemble, parsed]
      simp only [bound, encoded]
      exact ⟨_, rfl⟩
    | error e =>
      rcases refused_of_encode (Allocated.start count) encoded with
        ⟨line, i, member, refused⟩ | ⟨_, many⟩
      · have known := legal i (List.mem_map_of_mem (f := Prod.snd) member)
        exact absurd (refused.illegal.symm.trans known) Bool.false_ne_true
      · rw [List.nil_append, left_of_bindLabels bound] at many
        exact absurd fits.few (Nat.not_le_of_lt many)

end Program

end Assembly

end NandTools
