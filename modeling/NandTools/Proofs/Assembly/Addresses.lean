import Mathlib.Data.List.Induction
import NandTools.Proofs.Assembly.Reference

/-! What the symbols of an assembled program stand for: labels for places up to the end of the
program, variables for cells that are numbered in the order of first uses. -/
namespace NandTools

namespace Instruction

variable {uses : List String} {name : String}

theorem nodup_distinct (uses : List String) : uses.eraseDups.Nodup := by
  induction uses using List.reverseRecOn with
  | nil => exact .nil
  | append_singleton uses last ih =>
    by_cases known : last ∈ uses
    · rw [distinct_append_of_mem known]
      exact ih
    · rw [distinct_append_new known]
      refine List.nodup_append.mpr ⟨ih, List.pairwise_singleton _ _, ?_⟩
      rintro _ member _ new rfl
      exact known (List.mem_eraseDups.mp (List.mem_singleton.mp new ▸ member))

theorem distinct_eq_self (distinct : uses.Nodup) : uses.eraseDups = uses := by
  induction uses using List.reverseRecOn with
  | nil => rfl
  | append_singleton uses last ih =>
    obtain ⟨before, _, apart⟩ := List.nodup_append.mp distinct
    have new : last ∉ uses := fun used => apart last used last List.mem_cons_self rfl
    rw [distinct_append_new new, ih before]

/-- The ordinal of a name is its place among the distinct names. -/
theorem getElem?_ordinal (used : name ∈ uses) :
    uses.eraseDups[ordinal uses name]? = some name := by
  induction uses using List.reverseRecOn with
  | nil => cases used
  | append_singleton uses last ih =>
    by_cases before : name ∈ uses
    · rw [ordinal_append before]
      by_cases known : last ∈ uses
      · rw [distinct_append_of_mem known]
        exact ih before
      · obtain ⟨inside, _⟩ := List.getElem?_eq_some_iff.mp (ih before)
        rw [distinct_append_new known, List.getElem?_append_left inside]
        exact ih before
    · obtain rfl : name = last :=
        (List.mem_append.mp used).elim (absurd · before) List.mem_singleton.mp
      rw [distinct_append_new before, ordinal_new before, List.getElem?_concat_length]

theorem ordinal_lt (used : name ∈ uses) : ordinal uses name < uses.eraseDups.length :=
  (List.getElem?_eq_some_iff.mp (getElem?_ordinal used)).1

theorem ordinal_injective {other : String} (used : name ∈ uses) (used' : other ∈ uses)
    (same : ordinal uses name = ordinal uses other) : name = other := by
  have found := getElem?_ordinal used
  rw [same, getElem?_ordinal used'] at found
  exact (Option.some.inj found).symm

theorem exists_of_ordinal {number : Nat} (inside : number < uses.eraseDups.length) :
    ∃ name ∈ uses, ordinal uses name = number := by
  have used : uses.eraseDups[number] ∈ uses := List.mem_eraseDups.mp (List.getElem_mem inside)
  have found := getElem?_ordinal used
  rw [← List.getElem?_eq_getElem inside] at found
  refine ⟨_, used, ?_⟩
  exact (List.getElem?_inj (ordinal_lt used) (nodup_distinct uses)).mp found

end Instruction

/-- Labels stand for places up to the end of the program memory, variables for cells below the
screen. -/
def Binding.Reaches : Binding → Prop
  | predefined address => address ≤ Limits.address
  | label place _ => place ≤ Limits.romWords
  | allocated cell => Limits.variableBase ≤ cell ∧ cell < Limits.screen

namespace AssemblySymbols

/-- So many variables have the first cells that there are for them, one each. -/
structure Fills (symbols : AssemblySymbols) (count : Nat) : Prop where
  inside : ∀ {name : String} {cell : Nat}, symbols.cell? name = some cell →
    Limits.variableBase ≤ cell ∧ cell < Limits.variableBase + count
  filled : ∀ {cell : Nat}, Limits.variableBase ≤ cell → cell < Limits.variableBase + count →
    ∃ name, symbols.cell? name = some cell
  apart : ∀ {name other : String} {cell : Nat}, symbols.cell? name = some cell →
    symbols.cell? other = some cell → name = other
  below : Limits.variableBase + count ≤ Limits.screen

/-- Variables stay below a bound just when there are few of them. -/
theorem Fills.below_iff {symbols : AssemblySymbols} {count bound : Nat} (fills : symbols.Fills count)
    (room : Limits.variableBase ≤ bound) :
    (∀ name cell, symbols.cell? name = some cell → cell < bound) ↔
      count ≤ bound - Limits.variableBase := by
  constructor
  · intro below
    refine Nat.le_of_not_lt fun large => ?_
    obtain ⟨name, allocated⟩ := fills.filled room (by omega)
    exact Nat.lt_irrefl _ (below name bound allocated)
  · intro few name cell allocated
    have inside := (fills.inside allocated).2
    omega

end AssemblySymbols

namespace Assembly

open AssemblySymbols (Allocated)

theorem size_of_bindLabels {address : Nat} {symbols more : AssemblySymbols} {program : Program}
    (inside : address ≤ Limits.romWords)
    (bound : bindLabels address symbols program = (.ok (), more)) :
    address + Instruction.size (program.map Prod.snd) ≤ Limits.romWords := by
  induction program generalizing address symbols with
  | nil => exact inside
  | cons entry rest ih =>
    obtain ⟨line, i⟩ := entry
    rcases i.label_or with ⟨name, rfl⟩ | other
    · obtain ⟨defined, _, _, bound⟩ := bindLabels_label bound
      exact ih inside bound
    · rw [bindLabels_other other] at bound
      rw [List.map_cons, Instruction.size_other other]
      split at bound
      · cases bound
      · next room =>
        have later := ih (Nat.le_of_not_lt room) bound
        omega

section Program

variable {source : List Char} {program : Program} {assembly : Assembly} {symbols : AssemblySymbols}
  {name : String} (assembled : assemble .initial source = (.ok assembly, symbols))
include assembled

theorem reaches_of_assemble : symbols.All Binding.Reaches := by
  obtain ⟨program, labelled, _, bound, encoded, _⟩ := passes_of_assemble assembled
  have first : AssemblySymbols.initial.All Binding.Reaches := by
    intro name binding found
    obtain ⟨address, rfl, listed⟩ := AssemblySymbols.predefined_of_bindings found
    exact AssemblySymbols.predefined_le listed
  have labels : labelled.All Binding.Reaches :=
    all_of_bindLabels first (fun _ _ inside _ => inside) bound
  exact all_of_encode labels (fun _ least below => ⟨least, below⟩) encoded

theorem cell_inside {cell : Nat} (allocated : symbols.cell? name = some cell) :
    Limits.variableBase ≤ cell ∧ cell < Limits.screen :=
  reaches_of_assemble assembled name _ (AssemblySymbols.cell?_eq_some.mp allocated)

variable (parsed : Instruction.parseProgram source = .ok program)
include parsed

theorem size_of_assemble : Instruction.size (program.map Prod.snd) ≤ Limits.romWords := by
  obtain ⟨_, labelled, read, bound, _⟩ := passes_of_assemble assembled
  cases parsed.symm.trans read
  have inside := size_of_bindLabels (Nat.zero_le _) bound
  rwa [Nat.zero_add] at inside

/-- The word of an instruction that refers to a symbol is the word of what the symbol stands for. -/
theorem word_of_symbol {place : Nat} (symbol : Instruction.isSymbol name.toList = true)
    (found : (Instruction.encoded (program.map Prod.snd))[place]? = some (.address name)) :
    ∃ address, symbols.get? name = some address ∧
      assembly.words[place]? = some (addressWord address) := by
  have written := congrArg (·[place]?) (encodes_of_assemble parsed assembled).words
  simp only [List.getElem?_map, found, Option.map_some] at written
  obtain ⟨word, here, same⟩ := Option.map_eq_some_iff.mp written.symm
  obtain ⟨address, meant, rfl⟩ := Option.map_eq_some_iff.mp same.symm
  rw [AssemblySymbols.valueOf?_of_symbol symbol] at meant
  refine ⟨address, meant, ?_⟩
  rwa [Array.getElem?_toList] at here

/-- A label stands for the number of the instructions before it. -/
theorem get?_of_declared (declared : .label name ∈ program.map Prod.snd) :
    symbols.get? name = Instruction.place? (program.map Prod.snd) name := by
  have placed := (encodes_of_assemble parsed assembled).placed
  rw [AssemblySymbols.place?_of_placed placed declared, Nat.zero_add, Instruction.place?,
    if_pos declared]

/-- The first pass leaves the variables to the second, which allocates them in the order of their
uses. -/
private theorem allocated_of_assemble : ∃ labelled,
    bindLabels 0 .initial program = (.ok (), labelled) ∧
      Allocated labelled symbols (Instruction.variableUses (program.map Prod.snd)) ∧
        assembly.stats.variableCount = symbols.variableCount := by
  obtain ⟨_, labelled, read, bound, encoded, stats⟩ := passes_of_assemble assembled
  cases parsed.symm.trans read
  have allocated := allocated_of_encode (Allocated.start (counts_of_bindLabels bound).2) encoded
  have uses : ((program.map Prod.snd).filterMap Instruction.symbol?).filter labelled.leaves =
      Instruction.variableUses (program.map Prod.snd) :=
    List.filter_congr fun name _ => leaves_of_bindLabels bound name
  rw [List.nil_append, uses] at allocated
  rw [stats]
  exact ⟨labelled, bound, allocated, rfl⟩

theorem variableCount_of_assemble : assembly.stats.variableCount =
    (Instruction.variableUses (program.map Prod.snd)).eraseDups.length := by
  obtain ⟨_, _, allocated, same⟩ := allocated_of_assemble assembled parsed
  rw [same, allocated.cells]

/-- A variable has the cell that its first use gives it. -/
theorem cell?_iff {cell : Nat} : symbols.cell? name = some cell ↔
    name ∈ Instruction.variableUses (program.map Prod.snd) ∧ cell = Limits.variableBase +
      Instruction.ordinal (Instruction.variableUses (program.map Prod.snd)) name := by
  obtain ⟨labelled, bound, allocated, _⟩ := allocated_of_assemble assembled parsed
  rw [AssemblySymbols.cell?_eq_some]
  cases before : labelled.bindings[name]? with
  | none =>
    rw [allocated.fresh before]
    simp [eq_comm]
  | some binding =>
    have unused : name ∉ Instruction.variableUses (program.map Prod.snd) := by
      intro used
      have left := (List.mem_filter.mp used).2
      rw [← leaves_of_bindLabels bound, AssemblySymbols.leaves, before] at left
      cases left
    have label : binding ≠ .allocated cell := by
      rintro rfl
      rcases bindings_of_bindLabels bound before with first | ⟨_, _, _, same⟩
      · obtain ⟨_, same, _⟩ := AssemblySymbols.predefined_of_bindings first
        cases same
      · cases same
    rw [allocated.kept name binding before]
    simp [label, unused]

theorem cell?_injective {other : String} {cell : Nat} (first : symbols.cell? name = some cell)
    (second : symbols.cell? other = some cell) : name = other := by
  obtain ⟨used, rfl⟩ := (cell?_iff assembled parsed).mp first
  obtain ⟨used', same⟩ := (cell?_iff assembled parsed).mp second
  exact Instruction.ordinal_injective used used' (Nat.add_left_cancel same)

theorem fills_of_assemble : symbols.Fills assembly.stats.variableCount := by
  rw [variableCount_of_assemble assembled parsed]
  have filled {cell : Nat} (least : Limits.variableBase ≤ cell) (inside : cell <
      Limits.variableBase + (Instruction.variableUses (program.map Prod.snd)).eraseDups.length) :
      ∃ name, symbols.cell? name = some cell := by
    obtain ⟨name, used, number⟩ :=
      Instruction.exists_of_ordinal (Nat.sub_lt_left_of_lt_add least inside)
    refine ⟨name, (cell?_iff assembled parsed).mpr ⟨used, ?_⟩⟩
    rw [number, Nat.add_sub_cancel' least]
  refine ⟨fun allocated => ?_, filled, cell?_injective assembled parsed, ?_⟩
  · obtain ⟨used, rfl⟩ := (cell?_iff assembled parsed).mp allocated
    exact ⟨Nat.le_add_right _ _, Nat.add_lt_add_left (Instruction.ordinal_lt used) _⟩
  · refine Nat.le_of_not_lt fun large => ?_
    obtain ⟨name, allocated⟩ := filled (show Limits.variableBase ≤ Limits.screen by decide) large
    exact Nat.lt_irrefl _ (cell_inside assembled allocated).2

theorem cell?_of_declared (declared : .label name ∈ program.map Prod.snd) :
    symbols.cell? name = none := by
  refine Option.eq_none_iff_forall_not_mem.mpr fun cell allocated => ?_
  obtain ⟨used, _⟩ := (cell?_iff assembled parsed).mp allocated
  have undeclared := (List.mem_filter.mp used).2
  simp [declared] at undeclared

end Program

end Assembly

end NandTools
