import NandTools.Parser

/-! Single steps of the parser: how far it gets with one token, and with one child. -/
namespace NandTools.Parser

open NandTools.Source

variable {σ : Type} [TokenSupply σ] {p p' : Parser σ}

theorem advance_of_drawn {supply : σ} {located : Located Token} (sound : p.failure? = none)
    (fresh : p.pushedBack? = none) (drawn : TokenSupply.next p.supply = (.ok located, supply)) :
    p.advance = { p with supply, previous? := some p.current, current := located } := by
  rw [advance, fresh, scan, sound]
  simp only [drawn, fresh]

theorem advance_of_pushedBack {located : Located Token} (back : p.pushedBack? = some located) :
    p.advance =
      { p with pushedBack? := none, previous? := some p.current, current := located } := by
  rw [advance, back]

theorem advance_limit (p : Parser σ) : p.advance.limit = p.limit := by
  unfold advance scan
  split
  · rfl
  · split
    · rfl
    · split <;> rfl

theorem advance_of_failed {e : LexicalError} (failed : p.failure? = some e)
    (fresh : p.pushedBack? = none) :
    p.advance =
      { p with
        previous? := some p.current
        current := ⟨.endOfInput, .single p.current.span.stop⟩ } := by
  rw [advance, fresh]
  simp only [scan, failed]
  rw [fresh]

theorem advance_of_failing {e : LexicalError} {supply : σ} (sound : p.failure? = none)
    (fresh : p.pushedBack? = none) (drawn : TokenSupply.next p.supply = (.error e, supply)) :
    p.advance =
      { p with
        supply
        failure? := some e
        notes := .supplyFailed e :: p.notes
        previous? := some p.current
        current := ⟨.endOfInput, .single p.current.span.stop⟩ } := by
  rw [advance, fresh]
  simp only [scan, sound, drawn]
  rw [fresh]

/-- Unless a token is put back or the supply fails, the current token is drawn from the supply. -/
theorem next_of_advance (fresh : p.pushedBack? = none)
    (sound : p.advance.failure? = none) :
    p.failure? = none ∧ TokenSupply.next p.supply = (.ok p.advance.current, p.advance.supply) := by
  cases before : p.failure? with
  | some e =>
    have same : p.advance.failure? = some e := by
      simp only [advance, fresh, scan, before]
    rw [same] at sound
    cases sound
  | none =>
    refine ⟨rfl, ?_⟩
    rcases drawn : TokenSupply.next p.supply with ⟨e | located, supply⟩
    · have same : p.advance.failure? = some e := by
        simp only [advance, fresh, scan, before, drawn]
      rw [same] at sound
      cases sound
    · rw [advance_of_drawn before fresh drawn]

variable {read : Reader σ} {m m' m'' : Matcher} {span : Span} {tree : Located Tree}

/-- What comes of looking for the next child. It is the next token or the production that this one
opens, unless the input ends there or the production cannot be read. -/
inductive Finds (read : Reader σ) (m : Matcher) (p : Parser σ) :
    Except SyntaxError (Option (Located Tree)) × Matcher × Parser σ → Prop where
  | ended (ended : p.advance.current.value.isEnd = true) : Finds read m p (.ok none, m, p.advance)
  | token (inside : p.advance.current.value.isEnd = false)
      (plain : Rule.opened? (some m.rule) m.stage p.advance.current.value.kind = none) :
      Finds read m p (.ok (some (p.advance.current.map .leaf)), m, p.advance)
  | production (inside : p.advance.current.value.isEnd = false) {rule : Rule}
      (opened : Rule.opened? (some m.rule) m.stage p.advance.current.value.kind = some rule)
      {tree : Located Tree} {p' : Parser σ}
      (same : (read rule (handOver rule m).1 p.advance).val = (.ok tree, p')) :
      Finds read m p (.ok (some tree), (handOver rule m).2, p')
  | failed (inside : p.advance.current.value.isEnd = false) {rule : Rule}
      (opened : Rule.opened? (some m.rule) m.stage p.advance.current.value.kind = some rule)
      {e : SyntaxError} {p' : Parser σ}
      (same : (read rule (handOver rule m).1 p.advance).val = (.error e, p')) :
      Finds read m p (.error e, (handOver rule m).2, p')

theorem finds_child (read : Reader σ) (m : Matcher) (p : Parser σ) :
    Finds read m p (child read m p) := by
  unfold child
  dsimp only
  split
  · next ended => exact .ended ended
  · next more =>
    have inside : p.advance.current.value.isEnd = false := eq_false_of_ne_true more
    split
    · next plain => exact .token inside plain
    · next rule opened =>
      cases out : (read rule (handOver rule m).1 p.advance).val with
      | mk result p' =>
        cases result with
        | ok tree => exact .production inside opened out
        | error e => exact .failed inside opened out

theorem finds_of_child {tree? : Except SyntaxError (Option (Located Tree))}
    (found : child read m p = (tree?, m', p')) : Finds read m p (tree?, m', p') :=
  found ▸ finds_child read m p

theorem fill_closed (closed : m.closed = true) : fill read m span p = (.ok (m, span), p) := by
  rw [fill, if_pos closed]

theorem fill_taken (unclosed : m.closed = false) (found : child read m p = (.ok (some tree), m', p'))
    (taken : m'.offer? tree.value = some m'') :
    fill read m span p = fill read m'' (span.merge tree.span) p' := by
  conv => lhs; rw [fill, if_neg (by simp [unclosed])]
  split
  · next same => cases found.symm.trans same
  · next same => cases found.symm.trans same
  · next same =>
    cases found.symm.trans same
    rw [taken]

theorem fill_ended (unclosed : m.closed = false) (found : child read m p = (.ok none, m', p')) :
    fill read m span p = (.ok (m', span), p') := by
  rw [fill, if_neg (by simp [unclosed])]
  split
  · next same => cases found.symm.trans same
  · next same =>
    cases found.symm.trans same
    rfl
  · next same => cases found.symm.trans same

theorem fill_refused (unclosed : m.closed = false)
    (found : child read m p = (.ok (some tree), m', p')) (refused : m'.offer? tree.value = none)
    {token : Token} (leaf : tree.value = .leaf token) :
    fill read m span p = (.ok (m', span), p'.pushBack) := by
  rw [fill, if_neg (by simp [unclosed])]
  split
  · next same => cases found.symm.trans same
  · next same => cases found.symm.trans same
  · next same =>
    cases found.symm.trans same
    rw [refused]
    simp only [leaf]

theorem fill_failed {e : SyntaxError} (unclosed : m.closed = false)
    (found : child read m p = (.error e, m', p')) : fill read m span p = (.error e, p') := by
  rw [fill, if_neg (by simp [unclosed])]
  split
  · next same =>
    cases found.symm.trans same
    rfl
  · next same => cases found.symm.trans same
  · next same => cases found.symm.trans same

theorem fill_misplaced (unclosed : m.closed = false)
    (found : child read m p = (.ok (some tree), m', p')) (refused : m'.offer? tree.value = none)
    {rule : Rule} {children : List Tree} {closed : Bool}
    (branch : tree.value = .branch rule children closed) :
    fill read m span p = (.error (.misplacedRule rule m'.rule tree.span), p') := by
  rw [fill, if_neg (by simp [unclosed])]
  split
  · next same => cases found.symm.trans same
  · next same => cases found.symm.trans same
  · next same =>
    cases found.symm.trans same
    rw [refused]
    simp only [branch]

/-- A production that is read has been opened and filled, and nothing is missing in it. -/
theorem exists_filled {rule : Rule} {callee? : Option Tree}
    (built : build read rule callee? p = (.ok tree, p')) :
    ∃ m span q m' q', open_ read rule callee? p = (.ok (m, span), q) ∧
      fill read m span q = (.ok (m', tree.span), q') ∧ m'.isComplete = true ∧
      tree.value = m'.toTree ∧
      p' = { q' with notes := .matched m'.rule m'.taken.length m'.closed :: q'.notes } := by
  unfold build at built
  split at built
  · cases built
  · next m span q opened =>
    split at built
    · cases built
    · next m' span' q' filled =>
      unfold complete at built
      split at built
      · next complete =>
        cases built
        exact ⟨m, span, q, m', q', opened, filled, complete, rfl, rfl⟩
      · cases built

end NandTools.Parser
