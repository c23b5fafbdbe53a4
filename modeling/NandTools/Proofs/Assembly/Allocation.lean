import Mathlib.Algebra.Group.Nat.Defs
import NandTools.Proofs.Answers
import NandTools.Proofs.Assembly.Symbols

/-! Symbols under labels and uses in any order. A label may take a name over from a variable; cells
are given out one after the other all the same, one for each name that is not bound. -/
namespace NandTools

def Binding.isLabel : Binding → Bool
  | label .. => true
  | _ => false

namespace AssemblySymbols

/-- Symbols are told where a label stands, or asked what a name stands for. -/
inductive Call where
  | declare (name : String) (address line : Nat)
  | use (name : String)

inductive Reply where
  | declared
  | found (address : Nat)
  | refused (e : AssemblyError)
deriving DecidableEq

def answer (symbols : AssemblySymbols) : Call → Reply × AssemblySymbols
  | .declare name address line =>
    match symbols.defineLabel name address line with
    | .ok more => (.declared, more)
    | .error e => (.refused e, symbols)
  | .use name =>
    match symbols.resolve name with
    | .ok (address, more) => (.found address, more)
    | .error e => (.refused e, symbols)

/-- What a call can come to. -/
inductive Step (symbols : AssemblySymbols) : Call → Reply × AssemblySymbols → Prop
  | refused (call : Call) (e : AssemblyError) : Step symbols call (.refused e, symbols)
  | declared {name : String} {address line : Nat} {more : AssemblySymbols}
    (defined : symbols.defineLabel name address line = .ok more) :
    Step symbols (.declare name address line) (.declared, more)
  | known {name : String} {address : Nat} (bound : symbols.get? name = some address) :
    Step symbols (.use name) (.found address, symbols)
  | allocated {name : String} {address : Nat} {more : AssemblySymbols}
    (new : symbols.get? name = none) (resolved : symbols.resolve name = .ok (address, more)) :
    Step symbols (.use name) (.found address, more)

theorem step (symbols : AssemblySymbols) (call : Call) : Step symbols call (symbols.answer call) := by
  cases call with
  | declare name address line =>
    rw [answer]
    split
    · next more defined => exact .declared defined
    · next e _ => exact .refused _ e
  | use name =>
    rw [answer]
    split
    · next address more resolved =>
      rcases of_resolve resolved with ⟨rfl, bound⟩ | ⟨unbound, _⟩
      · exact .known bound
      · exact .allocated (congrArg (Option.map Binding.address) unbound) resolved
    · next e _ => exact .refused _ e

namespace Step

variable {symbols : AssemblySymbols} {call : Call} {out : Reply × AssemblySymbols} {name : String}
  {binding : Binding}

/-- Only a variable can lose its name. -/
theorem keeps (step : Step symbols call out) (firm : ∀ cell, binding ≠ .allocated cell)
    (bound : symbols.bindings[name]? = some binding) : out.2.bindings[name]? = some binding := by
  cases step with
  | refused e => exact bound
  | known _ => exact bound
  | allocated new resolved => exact resolve_extends resolved name binding bound
  | @declared label address line _ defined =>
    obtain ⟨free, inserted, _⟩ := of_defineLabel defined
    have other : label ≠ name := by
      rintro rfl
      rcases free with unbound | ⟨cell, allocated⟩
      · rw [unbound] at bound
        cases bound
      · rw [allocated] at bound
        exact firm cell (Option.some.inj bound).symm
    rw [inserted, Std.HashMap.getElem?_insert, if_neg (by simpa using other)]
    exact bound

/-- A name that is bound stays bound. -/
theorem isSome (step : Step symbols call out) (bound : (symbols.get? name).isSome = true) :
    (out.2.get? name).isSome = true := by
  cases step with
  | refused e => exact bound
  | known _ => exact bound
  | allocated new resolved =>
    obtain ⟨address, found⟩ := Option.isSome_iff_exists.mp bound
    rw [(resolve_extends resolved).get? found]
    rfl
  | @declared label address line _ defined =>
    rw [get?, (of_defineLabel defined).2.1, Std.HashMap.getElem?_insert]
    split
    · rfl
    · exact bound

theorem room (step : Step symbols call out)
    (inside : Limits.variableBase + symbols.variableCount ≤ Limits.screen) :
    Limits.variableBase + out.2.variableCount ≤ Limits.screen := by
  cases step with
  | refused e => exact inside
  | known _ => exact inside
  | declared defined =>
    rw [(of_defineLabel defined).2.2]
    exact inside
  | allocated new resolved =>
    rcases of_resolve resolved with ⟨_, bound⟩ | ⟨_, _, rfl, below, counted⟩
    · rw [new] at bound
      cases bound
    · rw [counted]
      exact below

/-- The labels are counted where they are bound. -/
theorem labelCount (step : Step symbols call out) :
    out.2.labelCount = symbols.labelCount + [out.1].count .declared := by
  cases step with
  | refused e => simp
  | known _ => simp
  | allocated new resolved => simp [labelCount_of_resolve resolved]
  | declared defined => simp [labelCount_of_defineLabel defined]

end Step

/-- The names that are bound to labels. -/
def boundLabels (symbols : AssemblySymbols) : Nat :=
  symbols.bindings.toList.countP fun entry => entry.2.isLabel

/-- A name that is no label is bound anew. -/
theorem boundLabels_of_insert {symbols more : AssemblySymbols} {name : String} {binding : Binding}
    (unlabelled : ∀ before, symbols.bindings[name]? = some before → before.isLabel = false)
    (inserted : more.bindings = symbols.bindings.insert name binding) :
    more.boundLabels = symbols.boundLabels + if binding.isLabel then 1 else 0 := by
  rw [boundLabels, inserted, Std.HashMap.toList_insert_perm.countP_eq, List.countP_cons,
    List.countP_filter, boundLabels]
  congr 1
  apply List.countP_congr
  rintro ⟨other, before⟩ member
  have bound := Std.HashMap.mem_toList_iff_getElem?_eq_some.mp member
  by_cases same : name = other
  · subst same
    simp [unlabelled before bound]
  · simp [same]

theorem Step.boundLabels {symbols : AssemblySymbols} {call : Call} {out : Reply × AssemblySymbols}
    (step : Step symbols call out) :
    out.2.boundLabels = symbols.boundLabels + [out.1].count .declared := by
  cases step with
  | refused e => simp
  | known _ => simp
  | @allocated name address _ new resolved =>
    rcases of_resolve resolved with ⟨_, bound⟩ | ⟨unbound, inserted, _⟩
    · rw [new] at bound
      cases bound
    · rw [boundLabels_of_insert (by simp [unbound]) inserted]
      simp [Binding.isLabel]
  | @declared name address line _ defined =>
    obtain ⟨free, inserted, _⟩ := of_defineLabel defined
    have unlabelled (before : Binding) (bound : symbols.bindings[name]? = some before) :
        before.isLabel = false := by
      rcases free with unbound | ⟨cell, allocated⟩
      · rw [unbound] at bound
        cases bound
      · rw [allocated] at bound
        cases bound
        rfl
    rw [boundLabels_of_insert unlabelled inserted]
    simp [Binding.isLabel]

section Run

variable (symbols : AssemblySymbols) (calls : List Call)

variable {symbols} {name : String}

end Run

end AssemblySymbols

end NandTools
