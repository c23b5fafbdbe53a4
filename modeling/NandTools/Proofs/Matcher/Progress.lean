import NandTools.Proofs.Matcher.Language

/-! What is true of a matcher wherever it is. All postures of every rule are searched for it, what has
to follow in the pattern aside. -/
namespace NandTools

namespace Posture

def awaited? (rule : Rule) (q : Posture) : Option Field := (q.matcher rule []).awaited?

/-- The postures that one child leads to. -/
def next (rule : Rule) (q : Posture) : List Posture :=
  (Prospect.relevant rule).filterMap fun s => q.step rule s

/-- Nothing is missing in a closed production, what is awaited is taken, and no group is gone back
to. -/
private def progresses (rule : Rule) (q : Posture) : Bool :=
  (!q.closed || q.isComplete rule) &&
    ((q.awaited? rule).all fun field =>
      rule.fields.contains field &&
        field.acceptance.symbols.all fun s => (q.step rule s).isSome) &&
    (next rule q).all fun q' => q.group ≤ q'.group

private theorem all_progress :
    Rule.all.all (fun rule => sweep (next rule) (progresses rule) 1000 [] [start rule]) = true := by
  decide +kernel

end Posture

namespace Matcher

variable {m m' : Matcher} {word : List Symbol}

/-- Whatever a search finds true of the postures of every rule is true of the matcher. -/
theorem Reads.of_search (read : m.Reads word) {good : Rule → Posture → Bool}
    (searched : Rule.all.all (fun rule =>
      sweep (Posture.next rule) (good rule) 1000 [] [.start rule]) = true) :
    good m.rule m.posture = true := by
  apply good_of_sweep (List.all_eq_true.mp searched m.rule m.rule.mem_all)
  induction read with
  | start rule => exact .refl
  | @take m m' word tree read taken ih =>
    rw [(offer_eq_some taken).1]
    apply ih.tail
    exact List.mem_filterMap.mpr
      ⟨tree.symbol, mem_relevant_of_offer read taken, step_of_offer read taken⟩
  | @pop m word _ ih =>
    rw [pop_rule, pop_posture]
    exact ih

private theorem Reads.progresses (read : m.Reads word) :
    (m.closed = true → m.posture.isComplete m.rule = true) ∧
      (∀ field, m.posture.awaited? m.rule = some field → field ∈ m.rule.fields ∧
        ∀ s ∈ field.acceptance.symbols, (m.posture.step m.rule s).isSome = true) ∧
      ∀ q ∈ m.posture.next m.rule, m.group ≤ q.group := by
  have good := read.of_search Posture.all_progress
  simp only [Posture.progresses, Bool.and_eq_true, Bool.or_eq_true, Bool.not_eq_true',
    Option.all_eq_true, List.all_eq_true, List.contains_iff_mem, decide_eq_true_eq] at good
  obtain ⟨⟨ended, taken⟩, upward⟩ := good
  refine ⟨fun closed => ?_, taken, upward⟩
  have closed : m.posture.closed = true := closed
  rw [closed] at ended
  simpa using ended

theorem awaited_posture (regular : m.Regular) : m.awaited? = m.posture.awaited? m.rule := by
  conv => lhs; rw [← matcher_posture regular]
  rfl

theorem Reads.complete_of_closed (read : m.Reads word) (closed : m.closed = true) :
    m.isComplete = true := by
  rw [isComplete_posture read.regular]
  exact read.progresses.1 closed

/-- What a matcher says it waits for, it takes. -/
theorem Reads.takes_awaited (read : m.Reads word) {field : Field} (awaited : m.awaited? = some field) :
    field ∈ m.rule.fields ∧
      ∀ tree, field.acceptance.accepts tree = true → ∃ m', m.offer? tree = some m' := by
  rw [awaited_posture read.regular] at awaited
  obtain ⟨member, taken⟩ := read.progresses.2.1 field awaited
  refine ⟨member, fun tree accepted => ?_⟩
  rw [Acceptance.accepts_eq] at accepted
  have stepped := taken tree.symbol (Acceptance.mem_symbols accepted)
  rw [← offer_posture read.regular, Option.isSome_map] at stepped
  exact Option.isSome_iff_exists.mp stepped

theorem Reads.group_le (read : m.Reads word) {tree : Tree} (taken : m.offer? tree = some m') :
    m.group ≤ m'.group :=
  read.progresses.2.2 m'.posture <| List.mem_filterMap.mpr
    ⟨tree.symbol, mem_relevant_of_offer read taken, step_of_offer read taken⟩

end Matcher

end NandTools
