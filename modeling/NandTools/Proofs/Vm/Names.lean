import NandTools.Proofs.Vm.Session

/-! The names of a session: its functions, and what labels, returns and outcomes of comparisons are
called. -/
namespace NandTools

theorem eq_of_first_mark {mark : Char} {front front' back back' : List Char}
    (absent : mark ∉ front) (absent' : mark ∉ front')
    (same : front ++ mark :: back = front' ++ mark :: back') : front = front' ∧ back = back' := by
  have cut := congrArg (Instruction.splitAt? mark) same
  rw [Instruction.splitAt_of_append absent, Instruction.splitAt_of_append absent'] at cut
  exact Prod.mk.inj (Option.some.inj cut)

/-- Where a mark is found last, a text is cut in one way. -/
theorem eq_of_last_mark {mark : Char} {front front' back back' : List Char}
    (absent : mark ∉ back) (absent' : mark ∉ back')
    (same : front ++ mark :: back = front' ++ mark :: back') : front = front' ∧ back = back' := by
  have reversed := congrArg List.reverse same
  simp only [List.reverse_append, List.reverse_cons, List.append_assoc, List.singleton_append]
    at reversed
  obtain ⟨backs, fronts⟩ := eq_of_first_mark (mt List.mem_reverse.mp absent)
    (mt List.mem_reverse.mp absent') reversed
  exact ⟨List.reverse_inj.mp fronts, List.reverse_inj.mp backs⟩

/-- The function that a command leaves its successors in. -/
def VmCommand.enters (function? : Option String) : VmCommand → Option String
  | function name _ => some name
  | _ => function?

namespace Step

/-- The functions of a session. -/
def functions (steps : List Step) : List String :=
  steps.filterMap fun
    | .command (.function name _) => some name
    | _ => none

/-- The commands of a session, each with the function that it stands in. A program begins with a
call. -/
def within (function? : Option String) : List Step → List (Option String × VmCommand)
  | [] => []
  | .bootstrap :: rest => (function?, .call "Sys.init" 0) :: within function? rest
  | .module _ :: rest => within none rest
  | .command entry :: rest => (function?, entry) :: within (entry.enters function?) rest

/-- The labels of a session, each with the function that it stands in. -/
def labels (function? : Option String) (steps : List Step) : List (Option String × String) :=
  (within function? steps).filterMap fun
    | (function?, .label name) => some (function?, name)
    | _ => none

/-- The functions that the calls of a session stand in. -/
def callers (function? : Option String) (steps : List Step) : List (Option String) :=
  (within function? steps).filterMap fun
    | (function?, .call ..) => some function?
    | _ => none

/-- The comparisons of a session. -/
def comparisons (steps : List Step) : List String :=
  steps.filterMap fun
    | .command (.arithmetic .eq) => some "EQ"
    | .command (.arithmetic .gt) => some "GT"
    | .command (.arithmetic .lt) => some "LT"
    | _ => none

def labelText : Option String × String → String
  | (some function, name) => s!"{function}${name}"
  | (none, name) => name

def returnText (call : Option String × Nat) : String :=
  let caller := call.1.getD "bootstrap"
  s!"{caller}$ret.{call.2}"

theorem toList_returnText (call : Option String × Nat) : (returnText call).toList =
    (call.1.getD "bootstrap").toList ++ '$' :: ("ret.".toList ++ (toString call.2).toList) := by
  simp [returnText, toString]

theorem toList_labelText (function name : String) :
    (labelText (some function, name)).toList = function.toList ++ '$' :: name.toList := by
  simp [labelText, toString]

theorem returnText_number {call call' : Option String × Nat}
    (same : returnText call = returnText call') : call.2 = call'.2 := by
  have texts := congrArg String.toList same
  rw [toList_returnText, toList_returnText] at texts
  have absent (n : Nat) : '$' ∉ "ret.".toList ++ (toString n).toList := by
    rw [List.mem_append, not_or]
    exact ⟨by decide, Text.not_mem_toString '$' (by decide) n⟩
  have backs := (eq_of_last_mark (absent _) (absent _) texts).2
  exact Text.toString_injective (List.append_cancel_left backs)

theorem outcome_number {name name' label : String} {number number' : Nat}
    (outcome : label ∈ CodeWriter.outcomes name number)
    (outcome' : label ∈ CodeWriter.outcomes name' number') : number = number' := by
  obtain ⟨_, _, chars⟩ := CodeWriter.toList_outcome outcome
  obtain ⟨_, _, chars'⟩ := CodeWriter.toList_outcome outcome'
  have absent (n : Nat) := Text.not_mem_toString '_' (by decide) n
  exact Text.toString_injective (eq_of_last_mark (absent _) (absent _) (chars.symm.trans chars')).2

private theorem pairwise_numbers {α : Type} (entries : List α) (first : Nat) :
    (entries.zipIdx first).Pairwise fun a b => a.2 ≠ b.2 := by
  have numbers : ((entries.zipIdx first).map Prod.snd).Nodup := by
    rw [List.zipIdx_map_snd]
    exact List.nodup_range' 1
  exact List.pairwise_map.mp numbers

theorem mem_comparisons {steps : List Step} {name : String} (member : name ∈ comparisons steps) :
    name ∈ ["EQ", "GT", "LT"] := by
  obtain ⟨step, _, same⟩ := List.mem_filterMap.mp member
  split at same <;> cases same <;> simp

/-- The texts of returns and of outcomes in a session. -/
def returnTexts (steps : List Step) : List String :=
  (callers none steps).zipIdx.map returnText

def outcomeTexts (steps : List Step) : List String :=
  (comparisons steps).zipIdx.flatMap fun comparison =>
    CodeWriter.outcomes comparison.1 comparison.2

/-- Returns are told apart by their numbers. -/
theorem nodup_returnTexts (steps : List Step) : (returnTexts steps).Nodup :=
  List.pairwise_map.mpr ((pairwise_numbers _ 0).imp fun other same => other (returnText_number same))

/-- Comparisons are told apart by their numbers, and their outcomes by what they begin with. -/
theorem nodup_outcomeTexts (steps : List Step) : (outcomeTexts steps).Nodup := by
  refine List.pairwise_flatMap.mpr ⟨fun comparison _ => CodeWriter.nodup_outcomes _ _, ?_⟩
  refine (pairwise_numbers _ 0).imp fun other text outcome text' outcome' same => ?_
  subst same
  exact other (outcome_number outcome outcome')

/-- An outcome begins with its kind, and has no dollar sign. -/
theorem of_mem_outcomeTexts {steps : List Step} {text : String}
    (member : text ∈ outcomeTexts steps) :
    (∃ kind ∈ ["IS_", "END_"], kind.toList <+: text.toList) ∧ '$' ∉ text.toList := by
  have kinds : ∀ kind ∈ ["IS_", "END_"], '$' ∉ kind.toList := by decide
  have names : ∀ name ∈ ["EQ", "GT", "LT"], '$' ∉ name.toList := by decide
  obtain ⟨comparison, among, outcome⟩ := List.mem_flatMap.mp member
  have known := mem_comparisons (List.fst_mem_of_mem_zipIdx among)
  obtain ⟨kind, listed, chars⟩ := CodeWriter.toList_outcome outcome
  refine ⟨⟨kind, listed, ?_⟩, ?_⟩
  · rw [chars, List.append_assoc]
    exact List.prefix_append _ _
  · rw [chars, List.mem_append, List.mem_append, List.mem_cons, not_or, not_or, not_or]
    exact ⟨⟨kinds kind listed, names _ known⟩, by decide, Text.not_mem_toString '$' (by decide) _⟩

/-- Names do not run together: no function has the name of a label, a return or an outcome, and no
two labels, nor a label and a return, have the same text. -/
structure Apart (steps : List Step) : Prop where
  functions : ∀ name ∈ functions steps, name ∉ (labels none steps).map labelText ∧
    name ∉ returnTexts steps ∧ name ∉ outcomeTexts steps
  labels : ∀ label ∈ labels none steps, ∀ label' ∈ labels none steps,
    labelText label = labelText label' → label = label'
  returns : ∀ label ∈ Step.labels none steps, labelText label ∉ returnTexts steps

theorem mem_functions_cons (step : Step) {steps : List Step} {name : String}
    (member : name ∈ functions steps) : name ∈ functions (step :: steps) := by
  obtain ⟨other, among, same⟩ := List.mem_filterMap.mp member
  exact List.mem_filterMap.mpr ⟨other, List.mem_cons_of_mem step among, same⟩

/-- Labels and calls stand in functions of the session. -/
theorem function_of_within {function? : Option String} {steps : List Step}
    {entry : Option String × VmCommand} (member : entry ∈ within function? steps) :
    ∀ name ∈ entry.1, name ∈ function? ∨ name ∈ functions steps := by
  induction steps generalizing function? with
  | nil => cases member
  | cons step rest ih =>
    cases step with
    | bootstrap =>
      rcases List.mem_cons.mp member with rfl | later
      · exact fun _ => .inl
      · exact ih later
    | module module => exact fun name among => (ih member name among).imp_left nofun
    | command entered =>
      rcases List.mem_cons.mp member with rfl | later
      · exact fun _ => .inl
      · intro name among
        rcases ih later name among with inside | after
        · cases entered with
          | function name' locals =>
            cases inside
            exact .inr List.mem_cons_self
          | _ => exact .inl inside
        · exact .inr (mem_functions_cons _ after)

theorem marked_of_return {steps : List Step} {text : String} (member : text ∈ returnTexts steps) :
    '$' ∈ text.toList := by
  obtain ⟨call, _, rfl⟩ := List.mem_map.mp member
  rw [toList_returnText]
  exact List.mem_append_right _ List.mem_cons_self

theorem marked_of_label {label : Option String × String} (inside : label.1.isSome) :
    '$' ∈ (labelText label).toList := by
  obtain ⟨_ | function, name⟩ := label
  · cases inside
  · rw [toList_labelText]
    exact List.mem_append_right _ List.mem_cons_self

/-- A return and an outcome never have the same text. -/
theorem return_ne_outcome {steps : List Step} : ∀ text ∈ returnTexts steps,
    ∀ text' ∈ outcomeTexts steps, text ≠ text' := by
  rintro text member _ outcome rfl
  exact (of_mem_outcomeTexts outcome).2 (marked_of_return member)

theorem label_ne_outcome {steps : List Step} {label : Option String × String}
    (inside : label.1.isSome) : ∀ text ∈ outcomeTexts steps, labelText label ≠ text := by
  rintro _ outcome rfl
  exact (of_mem_outcomeTexts outcome).2 (marked_of_label inside)

theorem function_of_label {steps : List Step} {label : Option String × String}
    (member : label ∈ labels none steps) : ∀ name ∈ label.1, name ∈ functions steps := by
  obtain ⟨⟨function?, command⟩, among, same⟩ := List.mem_filterMap.mp member
  cases command with
  | label text =>
    cases same
    exact fun name found => (function_of_within among name found).resolve_left nofun
  | _ => cases same

theorem function_of_caller {steps : List Step} {caller : Option String}
    (member : caller ∈ callers none steps) : ∀ name ∈ caller, name ∈ functions steps := by
  obtain ⟨⟨function?, command⟩, among, same⟩ := List.mem_filterMap.mp member
  cases command with
  | call callee args =>
    cases same
    exact fun name found => (function_of_within among name found).resolve_left nofun
  | _ => cases same

/-- Names do not run together when no function has a dollar sign or begins as an outcome does, and
no label begins as a return does. -/
theorem apart_of_plain {steps : List Step} (inside : ∀ label ∈ labels none steps, label.1.isSome)
    (unmarked : ∀ name ∈ functions steps, '$' ∉ name.toList)
    (plain : ∀ name ∈ functions steps, ∀ kind ∈ ["IS_", "END_"], ¬ kind.toList <+: name.toList)
    (labels : ∀ label ∈ labels none steps, ¬ "ret.".toList <+: label.2.toList) : Apart steps where
  functions name member := by
    refine ⟨fun text => ?_, fun text => unmarked name member (marked_of_return text),
      fun outcome => ?_⟩
    · obtain ⟨label, among, rfl⟩ := List.mem_map.mp text
      exact unmarked _ member (marked_of_label (inside label among))
    · obtain ⟨kind, listed, front⟩ := (of_mem_outcomeTexts outcome).1
      exact plain name member kind listed front
  labels label member label' member' same := by
    obtain ⟨_ | function, name⟩ := label
    · cases inside _ member
    obtain ⟨_ | function', name'⟩ := label'
    · cases inside _ member'
    have texts := congrArg String.toList same
    rw [toList_labelText, toList_labelText] at texts
    obtain ⟨functions, names⟩ := eq_of_first_mark
      (unmarked _ (function_of_label member function rfl))
      (unmarked _ (function_of_label member' function' rfl)) texts
    rw [String.toList_inj.mp functions, String.toList_inj.mp names]
  returns label member text := by
    obtain ⟨call, among, same⟩ := List.mem_map.mp text
    obtain ⟨_ | function, name⟩ := label
    · cases inside _ member
    have texts := congrArg String.toList same
    rw [toList_returnText, toList_labelText] at texts
    have caller : '$' ∉ (call.1.getD "bootstrap").toList := by
      cases found : call.1 with
      | none => decide
      | some function =>
        exact unmarked _ (function_of_caller (List.fst_mem_of_mem_zipIdx among) function found)
    have names := (eq_of_first_mark caller
      (unmarked _ (function_of_label member function rfl)) texts).2
    exact labels _ member (names ▸ List.prefix_append _ _)

end Step

end NandTools
