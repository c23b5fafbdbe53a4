import NandTools.Symbols.Table

/-! Tables that are made of a list of variables, and when there is one. -/
namespace NandTools

/-- What a declaration says about a variable. -/
structure Variable where
  name : String
  kind : SymbolKind
  type : SymbolType
deriving Repr, DecidableEq

namespace Variable

/-- The entries of variables that come after others: each has the number of variables of its kind
before it. -/
def entries (before : List Variable) : List Variable → List SymbolEntry
  | [] => []
  | v :: rest =>
    ⟨v.name, v.kind, v.type, before.countP (·.kind == v.kind)⟩ :: entries (before ++ [v]) rest

/-- The variables may be declared in one scope. -/
def Fit (vars : List Variable) : Prop :=
  (vars.map (·.name)).Nodup ∧ vars.length ≤ Limits.symbolsPerScope

variable {before first second : List Variable}

theorem entries_append (before first second : List Variable) :
    entries before (first ++ second) = entries before first ++ entries (before ++ first) second := by
  induction first generalizing before with
  | nil => rw [List.nil_append, entries, List.nil_append, List.append_nil]
  | cons v rest ih =>
    rw [List.cons_append, entries, ih, entries, List.cons_append, List.append_assoc]
    rfl

theorem map_name_entries (before vars : List Variable) :
    (entries before vars).map (·.name) = vars.map (·.name) := by
  induction vars generalizing before with
  | nil => rfl
  | cons v rest ih => rw [entries, List.map_cons, List.map_cons, ih]

theorem map_kind_entries (before vars : List Variable) :
    (entries before vars).map (·.kind) = vars.map (·.kind) := by
  induction vars generalizing before with
  | nil => rfl
  | cons v rest ih => rw [entries, List.map_cons, List.map_cons, ih]

theorem length_entries (before vars : List Variable) :
    (entries before vars).length = vars.length := by
  simpa using congrArg List.length (map_name_entries before vars)

theorem getElem?_entries (before vars : List Variable) (i : Nat) :
    (entries before vars)[i]? = vars[i]?.map fun v =>
      ⟨v.name, v.kind, v.type, (before ++ vars.take i).countP (·.kind == v.kind)⟩ := by
  induction vars generalizing before i with
  | nil => rfl
  | cons v rest ih =>
    cases i with
    | zero => rw [entries, List.take_zero, List.append_nil]; rfl
    | succ i => rw [entries, List.getElem?_cons_succ, ih, List.append_assoc]; rfl

theorem Fit.of_append (fit : Fit (first ++ second)) : Fit first := by
  obtain ⟨distinct, few⟩ := fit
  rw [List.map_append] at distinct
  rw [List.length_append] at few
  exact ⟨(List.nodup_append.mp distinct).1, Nat.le_trans (Nat.le_add_right _ _) few⟩

end Variable

/-- A declaration is refused for what it declares and not for how it is written. -/
def SymbolError.Wellformed (e : SymbolError) : Prop :=
  ∀ rule detail, e ≠ .malformedDeclaration rule detail

/-- The computation has this result if the condition holds, and otherwise is refused. -/
def Settles {α : Type} (condition : Prop) (out : Except SymbolError α) (result : α) : Prop :=
  (condition ∧ out = .ok result) ∨ (¬ condition ∧ ∃ e, out = .error e ∧ e.Wellformed)

namespace Settles

variable {α β : Type} {first second : Prop} {out : Except SymbolError α} {a : α} {b : β}

theorem congr (settles : Settles first out a) (same : first ↔ second) : Settles second out a := by
  rwa [Settles, ← same]

theorem map (settles : Settles first out a) (f : α → β) : Settles first (out.map f) (f a) := by
  rcases settles with ⟨holds, rfl⟩ | ⟨fails, e, rfl, wellformed⟩
  · exact .inl ⟨holds, rfl⟩
  · exact .inr ⟨fails, e, rfl, wellformed⟩

theorem bind (settles : Settles first out a) {f : α → Except SymbolError β}
    (goesOn : first → Settles second (f a) b) (stays : second → first) :
    Settles second (out >>= f) b := by
  rcases settles with ⟨holds, rfl⟩ | ⟨fails, e, rfl, wellformed⟩
  · exact goesOn holds
  · exact .inr ⟨fun holds => fails (stays holds), e, rfl, wellformed⟩

theorem wellformed (settles : Settles first out a) (rule : Rule) (detail : String) :
    out ≠ .error (.malformedDeclaration rule detail) := by
  rcases settles with ⟨_, rfl⟩ | ⟨_, e, rfl, wellformed⟩
  · exact nofun
  · intro same
    exact wellformed rule detail (Except.error.inj same)

theorem ok_iff (settles : Settles first out a) (result : α) :
    out = .ok result ↔ first ∧ result = a := by
  rcases settles with ⟨holds, rfl⟩ | ⟨fails, e, rfl, _⟩
  · constructor
    · intro same
      exact ⟨holds, (Except.ok.inj same).symm⟩
    · rintro ⟨_, rfl⟩
      rfl
  · exact iff_of_false nofun fun both => fails both.1

end Settles

namespace SymbolTable

/-- The table of these variables. -/
def of (scope : String) (vars : List Variable) : SymbolTable :=
  ⟨scope, (Variable.entries [] vars).toArray⟩

/-- Add variables one after the other. -/
def defineEach (table : SymbolTable) (vars : List Variable) : Except SymbolError SymbolTable :=
  vars.foldlM (fun table v => (table.define v.name v.kind v.type).map (·.2)) table

variable {scope : String} {vars : List Variable}

theorem contains_of (name : String) :
    (of scope vars).contains name = true ↔ name ∈ vars.map (·.name) := by
  rw [← Variable.map_name_entries [] vars, contains, of, List.any_toArray, List.any_eq_true,
    List.mem_map]
  simp only [beq_iff_eq]

theorem size_of : (of scope vars).size = vars.length := by
  rw [size, of, List.size_toArray, Variable.length_entries]

theorem count_of (kind : SymbolKind) :
    (of scope vars).count kind = vars.countP (·.kind == kind) := by
  have counted (list : List SymbolEntry) :
      list.countP (·.kind == kind) = (list.map (·.kind)).countP (· == kind) := by
    rw [List.countP_map]
    rfl
  rw [count, of, List.countP_toArray, counted, Variable.map_kind_entries, List.countP_map]
  rfl

/-- A variable is added just where the variables fit with it. -/
theorem define_of (v : Variable) (fit : Variable.Fit vars) :
    Settles (Variable.Fit (vars ++ [v]))
      (((of scope vars).define v.name v.kind v.type).map (·.2))
      (of scope (vars ++ [v])) := by
  unfold define
  split
  · next taken =>
    have member := (contains_of v.name).mp taken
    refine .inr ⟨fun fits => ?_, _, rfl, fun _ _ => nofun⟩
    have distinct := fits.1
    rw [List.map_append, List.nodup_append] at distinct
    exact distinct.2.2 v.name member v.name List.mem_cons_self rfl
  · next fresh =>
    rw [contains_of] at fresh
    split
    · next full =>
      refine .inr ⟨fun fits => ?_, _, rfl, fun _ _ => nofun⟩
      have few := fits.2
      rw [List.length_append, List.length_singleton] at few
      rw [size_of] at full
      omega
    · next room =>
      rw [size_of] at room
      refine .inl ⟨⟨?_, ?_⟩, ?_⟩
      · rw [List.map_append, List.nodup_append]
        refine ⟨fit.1, by simp, fun name member other single => ?_⟩
        rintro rfl
        rw [List.mem_singleton.mp single] at member
        exact fresh member
      · rw [List.length_append, List.length_singleton]
        omega
      · rw [count_of]
        simp [of, Except.map, Variable.entries_append, Variable.entries]

theorem defineEach_of (more : List Variable) (fit : Variable.Fit vars) :
    Settles (Variable.Fit (vars ++ more)) ((of scope vars).defineEach more)
      (of scope (vars ++ more)) := by
  induction more generalizing vars with
  | nil =>
    rw [List.append_nil]
    exact .inl ⟨fit, rfl⟩
  | cons v rest ih =>
    rw [defineEach, List.foldlM_cons, List.append_cons]
    exact (define_of v fit).bind ih Variable.Fit.of_append

end SymbolTable

end NandTools
