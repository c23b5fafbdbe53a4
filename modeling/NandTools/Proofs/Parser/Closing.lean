import NandTools.Proofs.Matcher.Progress
import NandTools.Proofs.Parser.Soundness

/-! Whether a branch of a tree that the parser returns is closed can be told from its children. -/
namespace NandTools

namespace Rule

/-- The children say that the production has been closed: by a token of its own, if it always ends
with one. -/
def MarksEnd (rule : Rule) (children : List Tree) : Prop :=
  match rule with
  | parameterList | expression | expressionList => False
  | ifStatement => ∃ token, .leaf token ∈ children ∧ token.kind = .keyword .else_
  | term => ¬ ∃ token, children = [.leaf token] ∧ token.kind = .identifier
  | _ => True

end Rule

namespace Posture

/-- How a production ends. An `if` is in its second group from its `else` on. A term is not closed by a
name, and one that is left open has room for a call after its name. -/
private def endsRight (rule : Rule) (q : Posture) : Bool :=
  match rule with
  | .parameterList | .expression | .expressionList => !q.closed
  | .ifStatement =>
    (!q.isComplete rule || q.closed == (q.lastGroup? == some 1)) &&
      (Prospect.relevant rule).all fun s => (q.step rule s).all fun q' =>
        (q'.lastGroup? == some 1) == (s == .kind (.keyword .else_) || q.lastGroup? == some 1)
  | .term =>
    (!q.isComplete rule || q.closed || q.lastGroup?.isNone || q.stage == .afterIdentifier) &&
      (q.step rule (.kind .identifier)).all fun q' => !q'.closed
  | _ => !q.isComplete rule || q.closed

private theorem all_endsRight :
    Rule.all.all (fun rule => sweep (next rule) (endsRight rule) 1000 [] [start rule]) = true := by
  decide +kernel

end Posture

namespace Matcher

variable {m m' : Matcher} {word : List Symbol}

private theorem Reads.endsRight (read : m.Reads word) : m.posture.endsRight m.rule = true :=
  read.of_search Posture.all_endsRight

private theorem Reads.lastGroup_iff (read : m.Reads word) (inIf : m.rule = .ifStatement) :
    m.lastGroup? = some 1 ↔ .kind (.keyword .else_) ∈ word := by
  induction read with
  | start rule => exact ⟨nofun, fun member => absurd member List.not_mem_nil⟩
  | @take m m' word tree read taken ih =>
    rw [(offer_eq_some taken).1] at inIf
    have relevant := mem_relevant_of_offer read taken
    have stepped := step_of_offer read taken
    have right := read.endsRight
    rw [inIf] at relevant stepped right
    obtain ⟨-, steps⟩ := Bool.and_eq_true_iff.mp right
    have step := List.all_eq_true.mp steps tree.symbol relevant
    rw [stepped, Option.all_some, beq_iff_eq, Bool.eq_iff_iff, Bool.or_eq_true, beq_iff_eq,
      beq_iff_eq, beq_iff_eq] at step
    have step : m'.lastGroup? = some 1 ↔
        tree.symbol = .kind (.keyword .else_) ∨ m.lastGroup? = some 1 := step
    rw [step, ih inIf, List.mem_append, List.mem_singleton, or_comm, eq_comm]
  | @pop m word _ ih =>
    rw [pop_rule] at inIf
    rw [show m.pop.2.lastGroup? = m.lastGroup? from congrArg Posture.lastGroup? m.pop_posture]
    exact ih inIf

private theorem Reads.unclosed_of_name (read : m.Reads word) (inTerm : m.rule = .term)
    (name : word = [.kind .identifier]) : m.closed = false := by
  induction read with
  | start rule => cases name
  | @take m m' word tree read taken ih =>
    rw [(offer_eq_some taken).1] at inTerm
    have stepped := step_of_offer read taken
    have right := read.endsRight
    rw [inTerm] at stepped right
    obtain ⟨-, unclosed⟩ := Bool.and_eq_true_iff.mp right
    have alone : word ++ [tree.symbol] = [] ++ [.kind .identifier] := name
    have named : tree.symbol = .kind .identifier :=
      (List.cons.inj (List.append_inj_right' alone rfl)).1
    rw [← named, stepped, Option.all_some, Bool.not_eq_true'] at unclosed
    exact unclosed
  | @pop m word _ ih =>
    rw [pop_rule] at inTerm
    rw [show m.pop.2.closed = m.closed from congrArg Posture.closed m.pop_posture]
    exact ih inTerm name

private theorem Filled.closed_of_if (filled : m.Filled word) (complete : m.isComplete = true)
    (inIf : m.rule = .ifStatement) :
    m.closed = true ↔ ∃ token, .leaf token ∈ m.children ∧ token.kind = .keyword .else_ := by
  have right := filled.read.endsRight
  rw [inIf] at right
  obtain ⟨ended, -⟩ := Bool.and_eq_true_iff.mp right
  rw [← inIf, ← isComplete_posture filled.read.regular, complete, Bool.not_true, Bool.false_or,
    beq_iff_eq, Bool.eq_iff_iff, beq_iff_eq] at ended
  have ended : m.closed = true ↔ m.lastGroup? = some 1 := ended
  obtain ⟨same, -⟩ | ⟨inTerm, _⟩ := filled.kept
  · rw [ended, filled.read.lastGroup_iff inIf, same, List.mem_map]
    constructor
    · rintro ⟨child, member, symbol⟩
      cases child with
      | leaf token => exact ⟨token, member, Symbol.kind.inj symbol⟩
      | branch rule children closed => cases symbol
    · rintro ⟨token, member, kind⟩
      exact ⟨.leaf token, member, congrArg Symbol.kind kind⟩
  · cases inIf.symm.trans inTerm

private theorem Filled.name_iff (filled : m.Filled word) (inTerm : m.rule = .term) :
    (∃ token, m.children = [.leaf token] ∧ token.kind = .identifier) ↔
      word = [.kind .identifier] := by
  constructor
  · rintro ⟨token, alone, name⟩
    rcases filled.kept with ⟨same, -⟩ | ⟨-, -, call⟩
    · rw [same, alone, List.map_singleton, Tree.symbol, name]
    · rw [alone] at call
      cases call
  · intro name
    rcases filled.kept with ⟨same, -⟩ | ⟨-, closed, -⟩
    · rw [name] at same
      obtain ⟨child, rest, alone, symbol, nothing⟩ := List.map_eq_cons_iff.mp same.symm
      obtain rfl := List.map_eq_nil_iff.mp nothing
      cases child with
      | leaf token => exact ⟨token, alone, Symbol.kind.inj symbol⟩
      | branch rule children closed => cases symbol
    · cases closed.symm.trans (filled.read.unclosed_of_name inTerm name)

private theorem Filled.closed_of_term (filled : m.Filled word) (complete : m.isComplete = true)
    (inTerm : m.rule = .term) :
    m.closed = true ↔ ¬ ∃ token, m.children = [.leaf token] ∧ token.kind = .identifier := by
  rw [filled.name_iff inTerm, ← Bool.not_eq_false]
  refine not_congr ⟨fun unclosed => ?_, filled.read.unclosed_of_name inTerm⟩
  obtain ⟨s, rest, nonempty, -⟩ := filled.begun
  have started := filled.read.lastGroup_isSome (nonempty ▸ List.cons_ne_nil s rest)
  have right := filled.read.endsRight
  rw [inTerm] at right
  obtain ⟨ended, -⟩ := Bool.and_eq_true_iff.mp right
  rw [← inTerm, ← isComplete_posture filled.read.regular, complete, ← Option.not_isSome,
    show m.posture.closed = false from unclosed,
    show m.posture.lastGroup?.isSome = true from started] at ended
  have stage : m.posture.stage = .afterIdentifier := by simpa using ended
  exact (filled.read.unclosed_term inTerm unclosed).2 stage

/-- A production that is complete is closed just where its children say so. -/
theorem Filled.closed_iff (filled : m.Filled word) (complete : m.isComplete = true) :
    m.closed = true ↔ m.rule.MarksEnd m.children := by
  have right := filled.read.endsRight
  have ended := isComplete_posture filled.read.regular
  rw [complete] at ended
  cases inRule : m.rule with
  | ifStatement => exact filled.closed_of_if complete inRule
  | term => exact filled.closed_of_term complete inRule
  | parameterList | expression | expressionList =>
    rw [inRule] at right
    have unclosed : m.closed = false := Bool.not_eq_true' _ ▸ right
    simp [unclosed, Rule.MarksEnd]
  | _ =>
    rw [inRule] at right ended
    simp only [Posture.endsRight, ← ended, Bool.not_true, Bool.false_or] at right
    exact iff_of_true right trivial

end Matcher

namespace Tree

mutual

/-- The tree and all that stands inside of it. -/
def parts : Tree → List Tree
  | leaf token => [leaf token]
  | branch rule children closed => branch rule children closed :: allParts children

def allParts : List Tree → List Tree
  | [] => []
  | tree :: rest => tree.parts ++ allParts rest

end

theorem allParts_eq_flatMap (trees : List Tree) : allParts trees = trees.flatMap parts := by
  induction trees with
  | nil => rfl
  | cons tree rest ih => rw [allParts, ih, List.flatMap_cons]

theorem Assembled.closed_iff {tree : Tree} (assembled : tree.Assembled) {rule : Rule}
    {children : List Tree} {closed : Bool} (member : .branch rule children closed ∈ tree.parts) :
    closed = true ↔ rule.MarksEnd children := by
  induction assembled with
  | leaf token => cases List.mem_singleton.mp member
  | @branch m word filled complete _ ih =>
    rw [Matcher.toTree, parts, allParts_eq_flatMap] at member
    rcases List.mem_cons.mp member with same | inside
    · cases same
      exact filled.closed_iff complete
    · obtain ⟨child, among, member⟩ := List.mem_flatMap.mp inside
      exact ih child among member

end Tree

namespace Parser

/-- In a class that is read, every branch is closed just where its children say so. -/
theorem parseClass_closed_iff {σ : Type} [TokenSupply σ] {p : Parser σ} {tree : Tree}
    (parsed : p.parseClass.1 = .ok tree) : ∀ rule children closed,
      .branch rule children closed ∈ tree.parts → (closed = true ↔ rule.MarksEnd children) :=
  fun _ _ _ member => (parseClass_assembled parsed).2.closed_iff member

/-- How each `if` of a tree ends. -/
private def ifEndings (tree : Tree) : List Bool :=
  tree.parts.filterMap fun
    | .branch .ifStatement _ closed => some closed
    | _ => none

private theorem exists_if {tree : Tree} {closed : Bool} (ends : closed ∈ ifEndings tree) :
    ∃ children, .branch .ifStatement children closed ∈ tree.parts := by
  obtain ⟨part, member, ending⟩ := List.mem_filterMap.mp ends
  split at ending
  · next children mark =>
    cases ending
    exact ⟨children, member⟩
  · cases ending

theorem parseClass_closed_of_else : ∃ tree short long,
    (parseText "class A { function void f() { if (x) { } if (y) { } else { } return; } }".toList).1 =
        .ok tree ∧
      .branch .ifStatement short false ∈ tree.parts ∧
      (¬ ∃ token, .leaf token ∈ short ∧ token.kind = .keyword .else_) ∧
      .branch .ifStatement long true ∈ tree.parts ∧
      ∃ token, .leaf token ∈ long ∧ token.kind = .keyword .else_ := by
  have read : ((parseText
      "class A { function void f() { if (x) { } if (y) { } else { } return; } }".toList).1.toOption.map
        ifEndings) = some [false, true] := by
    decide +kernel
  obtain ⟨tree, present, ends⟩ := Option.map_eq_some_iff.mp read
  have parsed := Except.ok_of_toOption present
  have left : false ∈ ifEndings tree := by simp [ends]
  have marked : true ∈ ifEndings tree := by simp [ends]
  obtain ⟨short, inside⟩ := exists_if left
  obtain ⟨long, inside'⟩ := exists_if marked
  refine ⟨tree, short, long, parsed, inside, fun marked => ?_, inside', ?_⟩
  · cases (parseClass_closed_iff parsed _ _ _ inside).mpr marked
  · exact (parseClass_closed_iff parsed _ _ _ inside').mp rfl

end Parser

end NandTools
