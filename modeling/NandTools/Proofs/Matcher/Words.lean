import NandTools.Proofs.Matcher.Language

/-! Whole sequences of children, offered to a matcher one after the other. -/
namespace NandTools

/-- Productions whose matchers admit nothing but their words. A declaration of a subroutine, a term
and a list of expressions admit more by themselves, as in `Rule.admitted`. -/
def Rule.strict : List Rule :=
  [.class_, .classVarDec, .parameterList, .subroutineBody, .varDec, .letStatement, .ifStatement,
    .whileStatement, .doStatement, .returnStatement, .expression, .subroutineCall]

theorem Rule.admitted_of_strict {rule : Rule} (strict : rule ∈ Rule.strict) :
    rule.admitted = rule.production := by
  cases rule with
  | subroutineDec | term | expressionList => exact absurd strict (by decide)
  | _ => rfl

namespace Matcher

variable {m m' : Matcher} {word : List Symbol} {trees : List Tree}

/-- The matcher after all of these children, unless one of them is refused. -/
def offerAll? (m : Matcher) (trees : List Tree) : Option Matcher := trees.foldlM offer? m

theorem offerAll_cons (m : Matcher) (tree : Tree) (rest : List Tree) :
    m.offerAll? (tree :: rest) = (m.offer? tree).bind fun m' => m'.offerAll? rest := rfl

/-- Children that are all taken have been read in their order. -/
theorem Reads.offerAll (read : m.Reads word) (taken : m.offerAll? trees = some m') :
    m'.rule = m.rule ∧ m'.Reads (word ++ trees.map Tree.symbol) := by
  induction trees generalizing m word with
  | nil =>
    cases taken
    exact ⟨rfl, by simpa using read⟩
  | cons tree rest ih =>
    rw [offerAll_cons, Option.bind_eq_some_iff] at taken
    obtain ⟨next, first, later⟩ := taken
    obtain ⟨same, reads⟩ := ih (read.take first) later
    refine ⟨same.trans (offer_eq_some first).1, ?_⟩
    simpa using reads

/-- Children that fit the pattern are all taken. -/
theorem Reads.exists_offerAll (read : m.Reads word)
    (fits : m.rule.admitted.Matches (word ++ trees.map Tree.symbol)) :
    ∃ m', m.offerAll? trees = some m' := by
  induction trees generalizing m word with
  | nil => exact ⟨m, rfl⟩
  | cons tree rest ih =>
    obtain ⟨next, first⟩ := read.exists_offer fits
    have fits : next.rule.admitted.Matches (word ++ [tree.symbol] ++ rest.map Tree.symbol) := by
      rw [(offer_eq_some first).1]
      simpa using fits
    obtain ⟨m', later⟩ := ih (read.take first) fits
    refine ⟨m', ?_⟩
    rw [offerAll_cons, first]
    exact later

/-- The words of a matcher are those that match its pattern. -/
theorem offerAll_complete_iff (rule : Rule) (trees : List Tree) :
    (∃ m, (ofRule rule).offerAll? trees = some m ∧ m.isComplete = true) ↔
      rule.admitted.Matches (trees.map Tree.symbol) := by
  constructor
  · rintro ⟨m, taken, complete⟩
    obtain ⟨same, read⟩ := (Reads.start rule).offerAll taken
    have matched := read.isComplete_iff.mp complete
    rw [same] at matched
    exact matched
  · intro fits
    obtain ⟨m, taken⟩ := (Reads.start rule).exists_offerAll fits
    obtain ⟨same, read⟩ := (Reads.start rule).offerAll taken
    refine ⟨m, taken, read.isComplete_iff.mpr ?_⟩
    rw [same]
    exact fits

/-- A fresh matcher takes all of a sequence of children and is complete in the end just where their
kinds and names match the production. -/
theorem offerAll_complete_iff_production {rule : Rule} (strict : rule ∈ Rule.strict)
    (trees : List Tree) :
    (∃ m, (ofRule rule).offerAll? trees = some m ∧ m.isComplete = true) ↔
      rule.production.Matches (trees.map Tree.symbol) := by
  rw [offerAll_complete_iff, Rule.admitted_of_strict strict]

/-- An assignment to an element of an array; without the equals sign it is none. -/
theorem offerAll_complete_of_element :
    let sign (s : Sign) : Tree := .leaf (.fixed (.sign s))
    let target : List Tree := [.leaf (.fixed (.keyword .let_)), .leaf ⟨.identifier, "a"⟩,
      sign .lbracket, .branch .expression [] false, sign .rbracket]
    let value : List Tree := [.branch .expression [] false, sign .semicolon]
    .letStatement ∈ Rule.strict ∧
      (∃ m, (ofRule .letStatement).offerAll? (target ++ sign .equals :: value) = some m ∧
        m.isComplete = true) ∧
      ¬ ∃ m, (ofRule .letStatement).offerAll? (target ++ value) = some m ∧ m.isComplete = true := by
  intro sign target value
  have strict : Rule.letStatement ∈ Rule.strict := by decide
  refine ⟨strict, ?_, ?_⟩
  · apply (offerAll_complete_iff_production strict _).mpr
    decide
  · intro accepted
    have matched := (offerAll_complete_iff_production strict _).mp accepted
    revert matched
    decide

end Matcher

end NandTools
