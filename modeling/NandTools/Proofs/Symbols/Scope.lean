import Mathlib.Algebra.GroupWithZero.Nat
import Mathlib.Data.List.Basic
import NandTools.Proofs.Answers
import NandTools.Proofs.Symbols.Table
import Std.Data.HashMap.Lemmas

/-! A scope that is filled in place. What its names stand for, the order of their declaration and the
next number of each kind are kept apart; they stay in agreement whatever is declared, and show the
same as a table. -/
namespace NandTools

deriving instance Hashable for SymbolKind

/-- What can be seen of the variables of a scope. -/
structure ScopeView where
  get? : String → Option SymbolEntry
  size : Nat
  count : SymbolKind → Nat
  entries : List SymbolEntry

namespace SymbolTable

def view (table : SymbolTable) : ScopeView where
  get? := table.get?
  size := table.size
  count := table.count
  entries := table.entries.toList

/-- Declare a variable. A table that refuses it stays as it is. -/
def answer (table : SymbolTable) (v : Variable) : Except SymbolError SymbolEntry × SymbolTable :=
  match table.define v.name v.kind v.type with
  | .ok (entry, table) => (.ok entry, table)
  | .error e => (.error e, table)

end SymbolTable

/-- What the names of a scope stand for, the names in the order of their declaration, and how many
variables there are of each kind. -/
structure Scope where
  name : String
  symbols : Std.HashMap String SymbolEntry
  order : Array String
  counts : Std.HashMap SymbolKind Nat

namespace Scope

def empty (name : String) : Scope := ⟨name, ∅, #[], ∅⟩

def get? (scope : Scope) (name : String) : Option SymbolEntry := scope.symbols[name]?

def size (scope : Scope) : Nat := scope.symbols.size

def count (scope : Scope) (kind : SymbolKind) : Nat := scope.counts.getD kind 0

/-- The variables in the order of their declaration. -/
def entries (scope : Scope) : List SymbolEntry := scope.order.toList.filterMap scope.get?

def view (scope : Scope) : ScopeView where
  get? := scope.get?
  size := scope.size
  count := scope.count
  entries := scope.entries

/-- The variable under the next number of its kind. -/
def entryOf (scope : Scope) (v : Variable) : SymbolEntry :=
  ⟨v.name, v.kind, v.type, scope.count v.kind⟩

def add (scope : Scope) (entry : SymbolEntry) : Scope :=
  { scope with
    symbols := scope.symbols.insert entry.name entry
    order := scope.order.push entry.name
    counts := scope.counts.insert entry.kind (scope.count entry.kind + 1) }

def define (scope : Scope) (v : Variable) : Except SymbolError SymbolEntry × Scope :=
  if scope.symbols.contains v.name then (.error (.duplicateSymbol v.name scope.name), scope)
  else if scope.size ≥ Limits.symbolsPerScope then
    (.error (.tooManySymbols scope.name Limits.symbolsPerScope), scope)
  else (.ok (scope.entryOf v), scope.add (scope.entryOf v))

/-- The three parts hold these variables. -/
structure Holds (scope : Scope) (defined : List SymbolEntry) : Prop where
  order : scope.order.toList = defined.map (·.name)
  found : ∀ name, scope.get? name = defined.find? (·.name == name)
  distinct : (defined.map (·.name)).Nodup
  size : scope.size = defined.length
  most : defined.length ≤ Limits.symbolsPerScope
  numbered : ∀ kind, (defined.filter (·.kind == kind)).map (·.index) = List.range (scope.count kind)

theorem holds_empty (name : String) : (empty name).Holds [] where
  order := rfl
  found _ := by simp [get?, empty]
  distinct := List.nodup_nil
  size := by simp [size, empty]
  most := Nat.zero_le _
  numbered _ := by simp [count, empty]

private theorem find_of_nodup {entries : List SymbolEntry} {entry : SymbolEntry}
    (distinct : (entries.map (·.name)).Nodup) (member : entry ∈ entries) :
    entries.find? (·.name == entry.name) = some entry := by
  induction entries with
  | nil => cases member
  | cons first rest ih =>
    obtain ⟨new, distinct⟩ := List.nodup_cons.mp distinct
    rcases List.mem_cons.mp member with rfl | member
    · simp
    · have other : first.name ≠ entry.name := by
        intro same
        exact new (List.mem_map.mpr ⟨entry, member, same.symm⟩)
      rw [List.find?_cons_of_neg (by simpa using other)]
      exact ih distinct member

namespace Holds

variable {scope : Scope} {defined : List SymbolEntry}

theorem entries (holds : scope.Holds defined) : scope.entries = defined := by
  have each : ∀ entry ∈ defined, scope.get? entry.name = some entry := by
    intro entry member
    rw [holds.found, find_of_nodup holds.distinct member]
  rw [Scope.entries, holds.order, List.filterMap_map]
  calc defined.filterMap (scope.get? ∘ (·.name))
      = defined.filterMap some := List.filterMap_congr each
    _ = defined := List.filterMap_some

theorem count (holds : scope.Holds defined) (kind : SymbolKind) :
    scope.count kind = defined.countP (·.kind == kind) := by
  have lengths := congrArg List.length (holds.numbered kind)
  rw [List.length_map, List.length_range] at lengths
  rw [List.countP_eq_length_filter, lengths]

theorem view (holds : scope.Holds defined) (name : String) :
    scope.view = (SymbolTable.mk name defined.toArray).view := by
  have found : scope.get? = (SymbolTable.mk name defined.toArray).get? := by
    funext other
    simp [holds.found, SymbolTable.get?]
  have counts : scope.count = (SymbolTable.mk name defined.toArray).count := by
    funext kind
    simp [holds.count, SymbolTable.count]
  simp [Scope.view, SymbolTable.view, found, counts, holds.entries, holds.size, SymbolTable.size]

end Holds

variable {scope : Scope} {defined : List SymbolEntry}

theorem define_of_taken {v : Variable} (taken : (scope.get? v.name).isSome = true) :
    scope.define v = (.error (.duplicateSymbol v.name scope.name), scope) := by
  rw [get?, Std.HashMap.isSome_getElem?_eq_contains] at taken
  rw [define, if_pos taken]

theorem define_of_full {v : Variable} (new : (scope.get? v.name).isSome = false)
    (full : Limits.symbolsPerScope ≤ scope.size) :
    scope.define v = (.error (.tooManySymbols scope.name Limits.symbolsPerScope), scope) := by
  rw [get?, Std.HashMap.isSome_getElem?_eq_contains] at new
  rw [define, if_neg (by simp [new]), if_pos full]

theorem define_of_room {v : Variable} (new : (scope.get? v.name).isSome = false)
    (room : scope.size < Limits.symbolsPerScope) :
    scope.define v = (.ok (scope.entryOf v), scope.add (scope.entryOf v)) := by
  rw [get?, Std.HashMap.isSome_getElem?_eq_contains] at new
  rw [define, if_neg (by simp [new]), if_neg (Nat.not_le_of_lt room)]

theorem get?_add (scope : Scope) (entry : SymbolEntry) (name : String) :
    (scope.add entry).get? name = if entry.name = name then some entry else scope.get? name := by
  simp [add, get?, Std.HashMap.getElem?_insert]

theorem count_add (scope : Scope) (entry : SymbolEntry) (kind : SymbolKind) :
    (scope.add entry).count kind =
      if entry.kind = kind then scope.count kind + 1 else scope.count kind := by
  by_cases same : entry.kind = kind
  · simp [add, count, same]
  · simp [add, count, same, Std.HashMap.getD_insert]

theorem size_add {entry : SymbolEntry} (new : scope.get? entry.name = none) :
    (scope.add entry).size = scope.size + 1 := by
  have absent : entry.name ∉ scope.symbols := by simpa [get?] using new
  simp [add, size, Std.HashMap.size_insert, absent]

/-- A variable with a new name comes behind the others. -/
theorem Holds.add (holds : scope.Holds defined) {v : Variable} (new : scope.get? v.name = none)
    (room : scope.size < Limits.symbolsPerScope) :
    (scope.add (scope.entryOf v)).Holds (defined ++ [scope.entryOf v]) := by
  have unused : ∀ entry ∈ defined, entry.name ≠ v.name := by
    have absent := new
    rw [holds.found, List.find?_eq_none] at absent
    simpa using absent
  constructor
  case order => simp [Scope.add, holds.order]
  case found =>
    intro name
    rw [get?_add, List.find?_append, ← holds.found]
    by_cases same : v.name = name
    · subst same
      simp [entryOf, new]
    · simp [entryOf, same]
  case distinct =>
    rw [List.map_append, List.nodup_append]
    refine ⟨holds.distinct, by simp, ?_⟩
    intro name member other single same
    obtain ⟨entry, among, rfl⟩ := List.mem_map.mp member
    exact unused entry among (same.trans (List.mem_singleton.mp single))
  case size => rw [size_add new, holds.size, List.length_append, List.length_singleton]
  case most =>
    have size := holds.size
    rw [List.length_append, List.length_singleton]
    omega
  case numbered =>
    intro kind
    rw [count_add, List.filter_append, List.map_append, holds.numbered]
    by_cases same : v.kind = kind
    · subst same
      simp [entryOf, List.range_succ]
    · simp [entryOf, same]

/-- A declaration is refused, and nothing changes, or its variable is added. -/
theorem define_cases (scope : Scope) (v : Variable) :
    (∃ e, scope.define v = (.error e, scope)) ∨
      scope.get? v.name = none ∧ scope.size < Limits.symbolsPerScope ∧
        scope.define v = (.ok (scope.entryOf v), scope.add (scope.entryOf v)) := by
  cases taken : (scope.get? v.name).isSome with
  | true => exact .inl ⟨_, define_of_taken taken⟩
  | false =>
    by_cases room : scope.size < Limits.symbolsPerScope
    · exact .inr ⟨by simpa using taken, room, define_of_room taken room⟩
    · exact .inl ⟨_, define_of_full taken (Nat.le_of_not_lt room)⟩

theorem define_name (scope : Scope) (v : Variable) : (scope.define v).2.name = scope.name := by
  rcases scope.define_cases v with ⟨e, refused⟩ | ⟨_, _, added⟩
  · rw [refused]
  · rw [added]
    rfl

namespace Holds

theorem define (holds : scope.Holds defined) (v : Variable) :
    (scope.define v).2.Holds (defined ++ (scope.define v).1.toOption.toList) := by
  rcases scope.define_cases v with ⟨e, refused⟩ | ⟨new, room, added⟩
  · rw [refused]
    simpa [Except.toOption] using holds
  · rw [added]
    exact holds.add new room

/-- A table of the same variables gives the same reply. -/
theorem answer (holds : scope.Holds defined) (v : Variable) :
    (SymbolTable.mk scope.name defined.toArray).answer v =
      ((scope.define v).1, ⟨scope.name, (defined ++ (scope.define v).1.toOption.toList).toArray⟩) := by
  have same := holds.view scope.name
  have taken : (SymbolTable.mk scope.name defined.toArray).contains v.name =
      (scope.get? v.name).isSome := by
    rw [holds.found, List.isSome_find?]
    simp [SymbolTable.contains]
  have size : (SymbolTable.mk scope.name defined.toArray).size = scope.size :=
    congrArg ScopeView.size same.symm
  have count : (SymbolTable.mk scope.name defined.toArray).count v.kind = scope.count v.kind :=
    congrFun (congrArg ScopeView.count same.symm) v.kind
  rw [SymbolTable.answer, SymbolTable.define, taken, size, count]
  cases known : (scope.get? v.name).isSome with
  | true =>
    rw [define_of_taken known]
    simp [Except.toOption]
  | false =>
    by_cases room : scope.size < Limits.symbolsPerScope
    · rw [define_of_room known room]
      simp [Nat.not_le_of_lt room, entryOf, Except.toOption]
    · rw [define_of_full known (Nat.le_of_not_lt room)]
      simp [Nat.le_of_not_lt room, Except.toOption]

theorem defines (holds : scope.Holds defined) (calls : List Variable) :
    let out := answers Scope.define scope calls
    out.2.Holds (defined ++ out.1.filterMap Except.toOption) ∧
      answers SymbolTable.answer ⟨scope.name, defined.toArray⟩ calls =
        (out.1, ⟨scope.name, (defined ++ out.1.filterMap Except.toOption).toArray⟩) := by
  induction calls generalizing scope defined with
  | nil => simpa [answers] using holds
  | cons v rest ih =>
    obtain ⟨later, tables⟩ := ih (holds.define v)
    rw [define_name] at tables
    have split : (answers Scope.define scope (v :: rest)).1.filterMap Except.toOption =
        (scope.define v).1.toOption.toList ++
          (answers Scope.define (scope.define v).2 rest).1.filterMap Except.toOption := by
      rw [answers_cons, List.filterMap_cons]
      cases (scope.define v).1.toOption <;> rfl
    dsimp only at later tables ⊢
    rw [split, ← List.append_assoc]
    refine ⟨later, ?_⟩
    rw [answers_cons, holds.answer, tables]
    rfl

/-- A name stands for one variable from its declaration on. -/
theorem get?_later (holds : scope.Holds defined) {name : String} {entry : SymbolEntry}
    (bound : scope.get? name = some entry) (later : List Variable) :
    (answers Scope.define scope later).2.get? name = some entry := by
  obtain ⟨holds', _⟩ := holds.defines later
  rw [holds.found] at bound
  rw [holds'.found, List.find?_append, bound]
  rfl

end Holds

theorem sum_counts (entries : List SymbolEntry) :
    (SymbolKind.all.map fun kind => entries.countP (·.kind == kind)).sum = entries.length := by
  induction entries with
  | nil => rfl
  | cons entry rest ih =>
    simp only [SymbolKind.all, List.map_cons, List.map_nil, List.sum_cons, List.sum_nil,
      List.countP_cons, List.length_cons] at ih ⊢
    cases entry.kind <;> simp <;> omega

/-- Whatever is declared in a scope, with success or without, its parts agree and show what a table
shows. The variables stand in the order in which they were declared, under different names; there are
as many as are counted, kind by kind, and not more than a scope may have; those of a kind are numbered
from zero. A name stands for the first variable that was declared under it, for ever; a declaration
that is refused, because the name is taken or else because the scope is full, changes nothing that can
be seen. -/
theorem declarations_agree (name : String) (calls : List Variable) :
    ∃ replies scope, answers define (empty name) calls = (replies, scope) ∧
      (∃ table, answers SymbolTable.answer (.empty name) calls = (replies, table) ∧
        scope.view = table.view) ∧
      scope.entries = replies.filterMap Except.toOption ∧
      (scope.entries.map (·.name)).Nodup ∧
      scope.size = scope.entries.length ∧
      scope.size = (SymbolKind.all.map scope.count).sum ∧
      scope.size ≤ Limits.symbolsPerScope ∧
      (∀ kind, (scope.entries.filter (·.kind == kind)).map (·.index) =
        List.range (scope.count kind)) ∧
      (∀ other, scope.get? other = scope.entries.find? (·.name == other)) ∧
      (∀ v, (scope.define v).1 =
        if (scope.get? v.name).isSome then .error (.duplicateSymbol v.name name)
        else if scope.size = Limits.symbolsPerScope then
          .error (.tooManySymbols name Limits.symbolsPerScope)
        else .ok ⟨v.name, v.kind, v.type, scope.count v.kind⟩) ∧
      (∀ v entry, (scope.define v).1 = .ok entry →
        ∀ later, (answers define (scope.define v).2 later).2.get? v.name = some entry) ∧
      ∀ v e, (scope.define v).1 = .error e →
        (scope.define v).2.view = scope.view ∧
          ∀ later, answers define (scope.define v).2 later = answers define scope later := by
  obtain ⟨holds, tables⟩ := (holds_empty name).defines calls
  have named : (answers define (empty name) calls).2.name = name :=
    answers_keep (P := fun scope => scope.name = name)
      (fun scope v same => (define_name scope v).trans same) rfl calls
  generalize answers define (empty name) calls = out at holds tables named
  obtain ⟨replies, scope⟩ := out
  dsimp only at holds tables named
  rw [List.nil_append] at holds tables
  have entries : scope.entries = replies.filterMap Except.toOption := holds.entries
  rw [← entries] at holds tables
  have most : scope.size ≤ Limits.symbolsPerScope := Nat.le_trans (Nat.le_of_eq holds.size) holds.most
  have sum : scope.size = (SymbolKind.all.map scope.count).sum := by
    rw [funext holds.count, sum_counts]
    exact holds.size
  refine ⟨replies, scope, rfl, ⟨_, tables, holds.view name⟩, entries, holds.distinct, holds.size, sum,
    most, holds.numbered, holds.found, ?_, ?_, ?_⟩
  · intro v
    cases taken : (scope.get? v.name).isSome with
    | true => simp [define_of_taken taken, named]
    | false =>
      by_cases full : scope.size = Limits.symbolsPerScope
      · simp [define_of_full taken (Nat.le_of_eq full.symm), full, named]
      · simp [define_of_room taken (Nat.lt_of_le_of_ne most full), full, entryOf]
  · intro v entry added later
    rcases scope.define_cases v with ⟨e, refused⟩ | ⟨_, _, accepted⟩
    · rw [refused] at added
      cases added
    · have bound : (scope.define v).2.get? v.name = some entry := by
        rw [accepted] at added ⊢
        cases added
        simp [get?_add, entryOf]
      exact (holds.define v).get?_later bound later
  · intro v e refused
    rcases scope.define_cases v with ⟨_, same⟩ | ⟨_, _, accepted⟩
    · rw [same]
      exact ⟨rfl, fun _ => rfl⟩
    · rw [accepted] at refused
      cases refused

end Scope

end NandTools
