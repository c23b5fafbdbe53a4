import NandTools.Proofs.Matcher.Progress
import NandTools.Proofs.Matcher.Refinement

/-! What holds along every run of a matcher: children are kept in order, a refusal leaves no trace,
and what is said to be expected is taken. -/
namespace NandTools

open Matcher (Call Reply View)

/-- What is left of the children when these calls have had these replies: what was taken, in order,
without what was popped. -/
def remaining (children : List Tree) : List Call → List Reply → List Tree
  | .offer tree :: calls, .taken :: replies => remaining (children ++ [tree]) calls replies
  | .offer _ :: calls, _ :: replies => remaining children calls replies
  | .pop :: calls, _ :: replies => remaining children.dropLast calls replies
  | _, _ => children

namespace Matcher

variable {m : Matcher} {word : List Symbol}

theorem pop_children (m : Matcher) : m.pop.2.children = m.children.dropLast := by
  unfold Matcher.pop
  split
  · next none => simp [children, none]
  · next some => simp [children, some]

theorem answer_offer_cases (m : Matcher) (tree : Tree) :
    (∃ m', m.offer? tree = some m' ∧ m.answer (.offer tree) = (.taken, m')) ∨
      m.answer (.offer tree) = (.refused tree, m) := by
  rw [answer]
  cases m.offer? tree with
  | none => exact .inr rfl
  | some m' => exact .inl ⟨m', rfl, rfl⟩

/-- A call leaves the children that its reply says it leaves. -/
theorem answers_children (m : Matcher) (calls : List Call) :
    (m.answers calls).2.children = remaining m.children calls (m.answers calls).1 := by
  induction calls generalizing m with
  | nil => rfl
  | cons call rest ih =>
    rw [answers]
    cases call with
    | pop =>
      rw [ih, answer, pop_children]
      rfl
    | offer tree =>
      rcases m.answer_offer_cases tree with ⟨m', taken, answered⟩ | answered
      · rw [answered, ih, children_of_offer taken]
        rfl
      · rw [answered, ih]
        rfl

theorem Reads.answer (read : m.Reads word) (call : Call) :
    (∃ word, (m.answer call).2.Reads word) ∧ m.group ≤ (m.answer call).2.group := by
  cases call with
  | pop =>
    refine ⟨⟨word, read.pop⟩, ?_⟩
    rw [Matcher.answer, Matcher.pop]
    split <;> exact Nat.le_refl m.group
  | offer tree =>
    rcases m.answer_offer_cases tree with ⟨m', taken, answered⟩ | answered
    · rw [answered]
      exact ⟨⟨_, read.take taken⟩, read.group_le taken⟩
    · rw [answered]
      exact ⟨⟨word, read⟩, Nat.le_refl m.group⟩

theorem Reads.answers (read : m.Reads word) (calls : List Call) :
    ∃ word, (m.answers calls).2.Reads word := by
  induction calls generalizing m word with
  | nil => exact ⟨word, read⟩
  | cons call rest ih =>
    obtain ⟨⟨_, next⟩, _⟩ := read.answer call
    exact ih next

theorem answer_of_closed (closed : m.closed = true) (call : Call) :
    (m.answer call).1 ≠ .taken ∧ (m.answer call).2.closed = true := by
  cases call with
  | pop =>
    rw [Matcher.answer, Matcher.pop]
    split <;> simp [closed]
  | offer tree =>
    rw [Matcher.answer, Matcher.offer?, if_pos closed]
    simp [closed]

theorem answers_of_closed (closed : m.closed = true) (calls : List Call) :
    .taken ∉ (m.answers calls).1 ∧ (m.answers calls).2.closed = true := by
  induction calls generalizing m with
  | nil => exact ⟨List.not_mem_nil, closed⟩
  | cons call rest ih =>
    obtain ⟨untaken, still⟩ := answer_of_closed closed call
    obtain ⟨none, ended⟩ := ih still
    refine ⟨fun member => ?_, ended⟩
    rcases List.mem_cons.mp member with first | later
    · exact untaken first.symm
    · exact none later

theorem answers_rule (m : Matcher) (calls : List Call) : (m.answers calls).2.rule = m.rule := by
  induction calls generalizing m with
  | nil => rfl
  | cons call rest ih =>
    rw [answers, ih]
    cases call with
    | pop => exact pop_rule m
    | offer tree =>
      rcases m.answer_offer_cases tree with ⟨m', taken, answered⟩ | answered
      · rw [answered]
        exact (offer_eq_some taken).1
      · rw [answered]

private theorem text_all : ∀ rule ∈ Rule.all, ∀ field ∈ rule.fields,
    field.acceptance.text ≠ "nothing" := by
  decide +kernel

/-- Nothing is expected where nothing is awaited, and only there. -/
theorem Reads.isComplete_iff_nothing (read : m.Reads word) :
    m.isComplete = true ↔ (Parser.expectation m).text = "nothing" := by
  rw [isComplete, Parser.expectation]
  cases awaited : m.awaited? with
  | none => exact iff_of_true rfl rfl
  | some field =>
    have member := (read.takes_awaited awaited).1
    exact iff_of_false (by simp) (text_all m.rule m.rule.mem_all field member)

end Matcher

namespace Attempt

variable {a : Attempt}

/-- What the calls bring to light: the replies, and what is seen in the end. -/
def outcome (a : Attempt) (calls : List Call) : Option (List Reply × View) :=
  (a.answers calls).bind fun (replies, a) => a.view.map fun view => (replies, view)

theorem Laid.outcome (laid : a.Laid) (calls : List Call) :
    a.outcome calls =
      some ((a.matcher.answers calls).1, (a.matcher.answers calls).2.view) := by
  obtain ⟨replies, a', run, laid', same⟩ := laid.answers calls
  rw [Attempt.outcome, run, same]
  simp [laid'.view]

theorem children_matcher (a : Attempt) : a.matcher.children = a.children :=
  List.reverse_reverse a.children

/-- An attempt that has come to be has a matcher that has read something. -/
theorem reads_matcher {rule : Rule} {calls : List Call} {replies : List Reply}
    (same : (ofRule rule).matcher.answers calls = (replies, a.matcher)) :
    a.matcher.rule = rule ∧ ∃ word, a.matcher.Reads word := by
  rw [matcher_ofRule] at same
  have ruled := Matcher.answers_rule (.ofRule rule) calls
  have read := (Matcher.Reads.start rule).answers calls
  rw [same] at ruled read
  exact ⟨ruled, read⟩

/-- A child that is refused is handed back, and the attempt goes on as if it had not been offered.
No group is gone back to, nothing is taken once the production is closed, and the children are those
taken, in order, without those popped. -/
theorem refusal_leaves_no_trace (rule : Rule) (calls : List Call) :
    ∃ replies a, (ofRule rule).answers calls = some (replies, a) ∧
      (∃ m, (Matcher.ofRule rule).answers calls = (replies, m) ∧ a.view = some m.view) ∧
      a.children = remaining [] calls replies ∧
      (∀ tree, ∃ reply a', a.answer (.offer tree) = some (reply, a') ∧
        (reply = .taken ∨ reply = .refused tree ∧ a'.view = a.view ∧
          ∀ later, a'.outcome later = a.outcome later)) ∧
      (∀ call, ∃ reply a', a.answer call = some (reply, a') ∧ a.group ≤ a'.group) ∧
      (a.closed = true → ∀ later, ∃ replies a', a.answers later = some (replies, a') ∧
        .taken ∉ replies ∧ a'.closed = true) := by
  obtain ⟨replies, a, run, laid, same⟩ := (laid_ofRule rule).answers calls
  obtain ⟨_, word, read⟩ := reads_matcher same
  have started := matcher_ofRule rule
  refine ⟨replies, a, run, ⟨a.matcher, started ▸ same, laid.view⟩, ?_, ?_, ?_, ?_⟩
  · have kept := Matcher.answers_children (ofRule rule).matcher calls
    rw [same, children_matcher, children_matcher] at kept
    exact kept
  · intro tree
    obtain ⟨reply, a', answered, laid', same'⟩ := laid.answer (.offer tree)
    refine ⟨reply, a', answered, ?_⟩
    rcases a.matcher.answer_offer_cases tree with ⟨m', _, taken⟩ | refused
    · rw [taken] at same'
      exact .inl (Prod.mk.inj same').1.symm
    · rw [refused] at same'
      obtain ⟨told, equal⟩ := Prod.mk.inj same'
      refine .inr ⟨told.symm, ?_, fun later => ?_⟩
      · rw [laid.view, laid'.view, equal]
      · rw [laid.outcome, laid'.outcome, equal]
  · intro call
    obtain ⟨reply, a', answered, _, same'⟩ := laid.answer call
    have upward := (read.answer call).2
    rw [same'] at upward
    exact ⟨reply, a', answered, upward⟩
  · intro closed later
    obtain ⟨replies, a', answered, _, same'⟩ := laid.answers later
    have closed : a.matcher.closed = true := closed
    have ended := Matcher.answers_of_closed closed later
    rw [same'] at ended
    exact ⟨replies, a', answered, ended⟩

/-- A brace is refused between the words of a return statement. -/
example : ((ofRule .returnStatement).answers
    [.offer (.leaf (.fixed (.keyword .return_))), .offer (.leaf (.fixed (.sign .rbrace))),
      .offer (.leaf (.fixed (.sign .semicolon)))]).map
        (fun (_, a) => (a.children.length, a.closed)) = some (2, true) := by
  decide

/-- A closed production is complete, a production is complete where nothing is expected, and where
something is, whatever the field named takes is taken. No place is asked for that is not there. -/
theorem expected_is_taken (rule : Rule) (calls : List Call) :
    ∃ replies a complete expected, (ofRule rule).answers calls = some (replies, a) ∧
      (∃ m, (Matcher.ofRule rule).answers calls = (replies, m) ∧ a.view = some m.view) ∧
      (∀ call, (a.answer call).isSome = true) ∧
      a.isComplete = some complete ∧ a.expected = some expected ∧
      (a.closed = true → complete = true) ∧
      (complete = true ↔ expected = "nothing") ∧
      (complete = false → ∃ field ∈ rule.fields, a.awaited = some (some field) ∧
        expected = field.acceptance.text ∧
        ∀ tree, field.acceptance.accepts tree = true →
          ∃ a', a.answer (.offer tree) = some (.taken, a')) := by
  obtain ⟨replies, a, run, laid, same⟩ := (laid_ofRule rule).answers calls
  obtain ⟨ruled, word, read⟩ := reads_matcher same
  have started := matcher_ofRule rule
  refine ⟨replies, a, a.matcher.isComplete, (Parser.expectation a.matcher).text, run,
    ⟨a.matcher, started ▸ same, laid.view⟩, ?_, laid.isComplete, laid.expected, ?_, ?_, ?_⟩
  · intro call
    obtain ⟨reply, a', answered, _⟩ := laid.answer call
    rw [answered]
    rfl
  · exact read.complete_of_closed
  · exact read.isComplete_iff_nothing
  · intro incomplete
    rw [Matcher.isComplete, Option.isNone_eq_false_iff, Option.isSome_iff_exists] at incomplete
    obtain ⟨field, awaited⟩ := incomplete
    obtain ⟨member, takes⟩ := read.takes_awaited awaited
    refine ⟨field, ruled ▸ member, awaited ▸ laid.awaited, ?_, fun tree accepted => ?_⟩
    · rw [Parser.expectation, awaited]
      rfl
    · obtain ⟨reply, a', answered, _, same'⟩ := laid.answer (.offer tree)
      obtain ⟨m', offered⟩ := takes tree accepted
      rw [Matcher.answer, offered] at same'
      obtain ⟨told, _⟩ := Prod.mk.inj same'
      exact ⟨a', told ▸ answered⟩

end Attempt

end NandTools
