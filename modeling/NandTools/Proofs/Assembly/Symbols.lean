import NandTools.Assembly.Symbols
import NandTools.Proofs.Assembly.Mnemonic
import Std.Data.HashMap.Lemmas

/-! What is bound by labels and variables, and what stays bound. -/
namespace NandTools

/-- Addresses fit into their instructions, and variables lie below the screen. -/
def Binding.Fits : Binding → Prop
  | predefined address | label address _ => address ≤ Limits.address
  | allocated address => Limits.variableBase ≤ address ∧ address < Limits.screen

theorem Binding.Fits.address_le {binding : Binding} (fits : binding.Fits) :
    binding.address ≤ Limits.address := by
  cases binding with
  | predefined address => exact fits
  | label address line => exact fits
  | allocated address => exact Nat.le_of_lt (Nat.lt_trans fits.2 (by decide))

namespace AssemblySymbols

/-- Every binding is kept. -/
def Extends (symbols more : AssemblySymbols) : Prop :=
  ∀ (name : String) (binding : Binding),
    symbols.bindings[name]? = some binding → more.bindings[name]? = some binding

theorem Extends.refl (symbols : AssemblySymbols) : symbols.Extends symbols := fun _ _ bound => bound

theorem Extends.trans {first second third : AssemblySymbols} (before : first.Extends second)
    (after : second.Extends third) : first.Extends third :=
  fun name binding bound => after name binding (before name binding bound)

theorem Extends.get? {symbols more : AssemblySymbols} (extended : symbols.Extends more)
    {name : String} {address : Nat} (bound : symbols.get? name = some address) :
    more.get? name = some address := by
  obtain ⟨binding, found, rfl⟩ := Option.map_eq_some_iff.mp bound
  exact congrArg (Option.map Binding.address) (extended name binding found)

/-- The cell of a variable. A symbol that stands for anything else has none. -/
def cell? (symbols : AssemblySymbols) (name : String) : Option Nat :=
  match symbols.bindings[name]? with
  | some (.allocated address) => some address
  | _ => none

theorem cell?_eq_some {symbols : AssemblySymbols} {name : String} {address : Nat} :
    symbols.cell? name = some address ↔
      symbols.bindings[name]? = some (.allocated address) := by
  unfold cell?
  split
  · next found => simp [found]
  · next other => exact iff_of_false nofun (other address)

/-- Every binding has a property. -/
def All (P : Binding → Prop) (symbols : AssemblySymbols) : Prop :=
  ∀ (name : String) (binding : Binding), symbols.bindings[name]? = some binding → P binding

def Bounded (symbols : AssemblySymbols) : Prop := symbols.All Binding.Fits

theorem Bounded.address_le {symbols : AssemblySymbols} (bounded : symbols.Bounded) {name : String}
    {address : Nat} (bound : symbols.get? name = some address) : address ≤ Limits.address := by
  obtain ⟨binding, found, rfl⟩ := Option.map_eq_some_iff.mp bound
  exact (bounded name binding found).address_le

theorem bindings_of_predefined {name : String} {address : Nat}
    (listed : (name, address) ∈ predefined) :
    initial.bindings[name]? = some (.predefined address) := by
  have distinct : (predefined.map fun entry => (entry.1, Binding.predefined entry.2)).Pairwise
      fun a b => (a.1 == b.1) = false := by
    decide +kernel
  refine Std.HashMap.getElem?_ofList_of_mem (beq_self_eq_true name) distinct ?_
  exact List.mem_map_of_mem listed

theorem bindings_of_not_predefined {name : String} (other : name ∉ predefined.map Prod.fst) :
    initial.bindings[name]? = none := by
  refine Std.HashMap.getElem?_ofList_of_contains_eq_false ?_
  rw [List.map_map]
  exact Bool.eq_false_iff.mpr fun contained => other (List.contains_iff_mem.mp contained)

theorem predefined_of_bindings {name : String} {binding : Binding}
    (bound : initial.bindings[name]? = some binding) :
    ∃ address, binding = .predefined address ∧ (name, address) ∈ predefined := by
  by_cases known : name ∈ predefined.map Prod.fst
  · obtain ⟨⟨_, address⟩, listed, rfl⟩ := List.mem_map.mp known
    have found := bindings_of_predefined listed
    exact ⟨address, Option.some.inj (bound.symm.trans found), listed⟩
  · rw [bindings_of_not_predefined known] at bound
    cases bound

theorem lookup_predefined {name : String} {address : Nat} :
    predefined.lookup name = some address ↔
      initial.bindings[name]? = some (.predefined address) := by
  constructor
  · intro found
    exact bindings_of_predefined (Mnemonic.mem_of_lookup found)
  · intro bound
    obtain ⟨_, same, listed⟩ := predefined_of_bindings bound
    cases same
    cases found : predefined.lookup name with
    | none => exact absurd rfl (bne_iff_ne.mp (List.lookup_eq_none_iff.mp found _ listed))
    | some known =>
      have both := bound.symm.trans (bindings_of_predefined (Mnemonic.mem_of_lookup found))
      cases both
      rfl

/-- Every symbol that is bound at first is made of letters and digits only. -/
theorem unbound_of_mark {name : String} {mark : Char} (marked : mark ∈ name.toList)
    (other : mark.isAlphanum = false) : initial.bindings[name]? = none := by
  refine bindings_of_not_predefined fun listed => ?_
  obtain ⟨entry, among, rfl⟩ := List.mem_map.mp listed
  have checked : ∀ entry ∈ predefined, entry.1.toList.all Char.isAlphanum = true := by
    decide +kernel
  have alphanumeric := List.all_eq_true.mp (checked entry among) mark marked
  exact Bool.false_ne_true (other.symm.trans alphanumeric)

theorem predefined_le {name : String} {address : Nat} (listed : (name, address) ∈ predefined) :
    address ≤ Limits.address := by
  have checked : ∀ entry ∈ predefined, entry.2 ≤ Limits.address := by decide +kernel
  exact checked _ listed

theorem bounded_initial : initial.Bounded := by
  intro name binding bound
  obtain ⟨address, rfl, listed⟩ := predefined_of_bindings bound
  exact predefined_le listed

theorem cell?_initial (name : String) : initial.cell? name = none := by
  refine Option.eq_none_iff_forall_not_mem.mpr fun address allocated => ?_
  obtain ⟨_, same, _⟩ := predefined_of_bindings (cell?_eq_some.mp allocated)
  cases same

section Insertion

variable {symbols more : AssemblySymbols} {name : String}

/-- A label is new, unless a variable has its name. -/
theorem of_defineLabel {address line : Nat}
    (defined : symbols.defineLabel name address line = .ok more) :
    (symbols.bindings[name]? = none ∨ ∃ cell, symbols.bindings[name]? = some (.allocated cell)) ∧
      more.bindings = symbols.bindings.insert name (.label address line) ∧
        more.variableCount = symbols.variableCount := by
  unfold defineLabel at defined
  split at defined
  · cases defined
  · cases defined
  · next unlabelled unlisted =>
    cases defined
    refine ⟨?_, rfl, rfl⟩
    cases bound : symbols.bindings[name]? with
    | none => exact .inl rfl
    | some binding =>
      cases binding with
      | predefined address => exact absurd bound (unlisted address)
      | label address line => exact absurd bound (unlabelled address line)
      | allocated cell => exact .inr ⟨cell, rfl⟩

/-- A symbol is bound already, or it becomes a variable. -/
theorem of_resolve {address : Nat} (resolved : symbols.resolve name = .ok (address, more)) :
    more = symbols ∧ symbols.get? name = some address ∨
      symbols.bindings[name]? = none ∧ more.bindings = symbols.bindings.insert name (.allocated address) ∧
        address = Limits.variableBase + symbols.variableCount ∧ address < Limits.screen ∧
          more.variableCount = symbols.variableCount + 1 := by
  unfold resolve at resolved
  split at resolved
  · next binding found =>
    cases resolved
    exact .inl ⟨rfl, congrArg (Option.map Binding.address) found⟩
  · next unbound =>
    dsimp only at resolved
    split at resolved
    · cases resolved
    · next below =>
      cases resolved
      exact .inr ⟨unbound, rfl, rfl, Nat.lt_of_not_le below, rfl⟩

theorem labelCount_of_defineLabel {address line : Nat}
    (defined : symbols.defineLabel name address line = .ok more) :
    more.labelCount = symbols.labelCount + 1 := by
  unfold defineLabel at defined
  split at defined
  · cases defined
  · cases defined
  · cases defined
    rfl

theorem labelCount_of_resolve {address : Nat}
    (resolved : symbols.resolve name = .ok (address, more)) :
    more.labelCount = symbols.labelCount := by
  unfold resolve at resolved
  split at resolved
  · cases resolved
    rfl
  · dsimp only at resolved
    split at resolved
    · cases resolved
    · cases resolved
      rfl

theorem defineLabel_ok (unbound : symbols.bindings[name]? = none) (address line : Nat) :
    ∃ more, symbols.defineLabel name address line = .ok more := by
  rw [defineLabel, unbound]
  exact ⟨_, rfl⟩

theorem resolve_ok (name : String)
    (room : Limits.variableBase + symbols.variableCount < Limits.screen) :
    ∃ address more, symbols.resolve name = .ok (address, more) ∧
      more.variableCount ≤ symbols.variableCount + 1 := by
  unfold resolve
  split
  · exact ⟨_, _, rfl, Nat.le_succ _⟩
  · dsimp only
    rw [if_neg (Nat.not_le_of_lt room)]
    exact ⟨_, _, rfl, Nat.le_refl _⟩

/-- Only the label itself is bound. -/
theorem bindings_of_defineLabel {address line : Nat} {other : String} {binding : Binding}
    (defined : symbols.defineLabel name address line = .ok more)
    (bound : more.bindings[other]? = some binding) :
    symbols.bindings[other]? = some binding ∨ name = other ∧ binding = .label address line := by
  rw [(of_defineLabel defined).2.1, Std.HashMap.getElem?_insert] at bound
  split at bound
  · next same =>
    cases bound
    exact .inr ⟨beq_iff_eq.mp same, rfl⟩
  · exact .inl bound

theorem bindings_of_resolve {address : Nat} {other : String} {binding : Binding}
    (resolved : symbols.resolve name = .ok (address, more))
    (bound : more.bindings[other]? = some binding) :
    symbols.bindings[other]? = some binding ∨ name = other ∧ binding = .allocated address := by
  rcases of_resolve resolved with ⟨rfl, _⟩ | ⟨_, inserted, _⟩
  · exact .inl bound
  · rw [inserted, Std.HashMap.getElem?_insert] at bound
    split at bound
    · next same =>
      cases bound
      exact .inr ⟨beq_iff_eq.mp same, rfl⟩
    · exact .inl bound

theorem cell?_of_defineLabel {address line : Nat}
    (unallocated : ∀ name, symbols.cell? name = none)
    (defined : symbols.defineLabel name address line = .ok more) (other : String) :
    more.cell? other = none := by
  refine Option.eq_none_iff_forall_not_mem.mpr fun cell allocated => ?_
  rcases bindings_of_defineLabel defined (cell?_eq_some.mp allocated) with before | ⟨_, same⟩
  · exact Option.eq_none_iff_forall_not_mem.mp (unallocated other) cell (cell?_eq_some.mpr before)
  · cases same

theorem defineLabel_extends {address line : Nat} (unallocated : symbols.cell? name = none)
    (defined : symbols.defineLabel name address line = .ok more) : symbols.Extends more := by
  obtain ⟨new, inserted, _⟩ := of_defineLabel defined
  intro other binding bound
  rw [inserted, Std.HashMap.getElem?_insert]
  split
  · next same =>
    obtain rfl := beq_iff_eq.mp same
    rcases new with unbound | ⟨cell, allocated⟩
    · rw [unbound] at bound
      cases bound
    · rw [cell?_eq_some.mpr allocated] at unallocated
      cases unallocated
  · exact bound

theorem resolve_extends {address : Nat} (resolved : symbols.resolve name = .ok (address, more)) :
    symbols.Extends more := by
  rcases of_resolve resolved with ⟨rfl, _⟩ | ⟨unbound, inserted, _⟩
  · exact .refl _
  · intro other binding bound
    rw [inserted, Std.HashMap.getElem?_insert, if_neg]
    · exact bound
    · intro same
      obtain rfl := beq_iff_eq.mp same
      rw [unbound] at bound
      cases bound

theorem get?_of_resolve {address : Nat} (resolved : symbols.resolve name = .ok (address, more)) :
    more.get? name = some address := by
  rcases of_resolve resolved with ⟨rfl, found⟩ | ⟨_, inserted, _⟩
  · exact found
  · rw [get?, inserted, Std.HashMap.getElem?_insert_self]
    rfl

theorem get?_of_defineLabel {address line : Nat}
    (defined : symbols.defineLabel name address line = .ok more) :
    more.get? name = some address := by
  rw [get?, (of_defineLabel defined).2.1, Std.HashMap.getElem?_insert_self]
  rfl

private theorem All.insert {P : Binding → Prop} {binding : Binding} (all : symbols.All P)
    (new : P binding) (inserted : more.bindings = symbols.bindings.insert name binding) :
    more.All P := by
  intro other found bound
  rw [inserted, Std.HashMap.getElem?_insert] at bound
  split at bound
  · cases bound
    exact new
  · exact all other found bound

theorem All.defineLabel {P : Binding → Prop} {address line : Nat} (all : symbols.All P)
    (new : P (.label address line))
    (defined : symbols.defineLabel name address line = .ok more) : more.All P :=
  all.insert new (of_defineLabel defined).2.1

theorem All.resolve {P : Binding → Prop} {address : Nat} (all : symbols.All P)
    (new : ∀ cell, Limits.variableBase ≤ cell → cell < Limits.screen → P (.allocated cell))
    (resolved : symbols.resolve name = .ok (address, more)) : more.All P := by
  rcases of_resolve resolved with ⟨rfl, _⟩ | ⟨_, inserted, rfl, below, _⟩
  · exact all
  · exact all.insert (new _ (Nat.le_add_right _ _) below) inserted

end Insertion

end AssemblySymbols

end NandTools
