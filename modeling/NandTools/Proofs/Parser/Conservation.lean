import NandTools.Proofs.Parser.Awaits
import NandTools.Proofs.Parser.Soundness
import NandTools.Proofs.Tree.Tokens

/-! Every token that is drawn ends up in a tree, in order, or is put back for the next call. -/
namespace NandTools

open NandTools.Source

namespace Parser

variable {σ : Type} [TokenSupply σ]

/-- The token that is put back, if there is one. -/
def held (p : Parser σ) : List Token := p.pushedBack?.toList.map (·.value)

theorem previous_advance (p : Parser σ) : p.advance.previous? = some p.current := by
  unfold advance
  split <;> rfl

theorem pushBack_advance (p : Parser σ) :
    p.advance.pushBack =
      { p.advance with
        pushedBack? := some p.advance.current, previous? := none, current := p.current } := by
  rw [pushBack, previous_advance]

theorem held_advance (p : Parser σ) : p.advance.held = [] := by
  unfold held advance
  split
  · rfl
  · next fresh =>
    dsimp only
    rw [scan_pushedBack, fresh]
    rfl

/-- The end of the input is never put back. -/
def Tidy (p : Parser σ) : Prop := ∀ token ∈ p.held, token.isEnd = false

/-- Between two states of the parser these tokens have been used up, unless the supply has failed:
they are the tokens held before and those drawn since, less those held now. -/
def Uses (p : Parser σ) (used : List Token) (p' : Parser σ) : Prop :=
  p'.failure? = none → p.failure? = none ∧ (p.Tidy → p'.Tidy ∧
    ∃ drawn, Draws p.supply drawn p'.supply ∧ p.held ++ drawn = used ++ p'.held)

namespace Uses

variable {p q r : Parser σ} {used first second : List Token}

theorem nothing (p : Parser σ) : Uses p [] p :=
  fun sound => ⟨sound, fun tidy => ⟨tidy, [], .rest _, List.append_nil _⟩⟩

theorem append (front : Uses p first q) (back : Uses q second r) : Uses p (first ++ second) r := by
  intro sound
  obtain ⟨soundBetween, moveBack⟩ := back sound
  obtain ⟨soundBefore, moveFront⟩ := front soundBetween
  refine ⟨soundBefore, fun tidy => ?_⟩
  obtain ⟨tidyBetween, drawn, draws, balance⟩ := moveFront tidy
  obtain ⟨tidyAfter, later, drawsLater, balanceLater⟩ := moveBack tidyBetween
  refine ⟨tidyAfter, drawn ++ later, draws.append drawsLater, ?_⟩
  rw [← List.append_assoc, balance, List.append_assoc, balanceLater, List.append_assoc]

/-- Notes do not matter. -/
theorem noted (uses : Uses p used q) (notes : List ParserNote) : Uses p used { q with notes } :=
  uses

/-- Advancing uses up the token that becomes the current one, unless it is the end. -/
theorem advance (p : Parser σ) :
    Uses p (if p.advance.current.value.isEnd then [] else [p.advance.current.value]) p.advance := by
  cases back : p.pushedBack? with
  | some located =>
    rw [advance_of_pushedBack back]
    intro sound
    refine ⟨sound, fun tidy => ?_⟩
    have heldBefore : p.held = [located.value] := by rw [held, back]; rfl
    have inside := tidy located.value (by rw [heldBefore]; exact List.mem_cons_self)
    simp only [inside, Bool.false_eq_true, if_false]
    exact ⟨fun _ absent => (nomatch absent), [], .rest _, by rw [heldBefore]; rfl⟩
  | none =>
    intro sound
    obtain ⟨soundBefore, drawn⟩ := next_of_advance back sound
    refine ⟨soundBefore, fun _ => ⟨by simp [Tidy, held_advance], ?_⟩⟩
    rw [held_advance, List.append_nil, held, back]
    cases ended : p.advance.current.value.isEnd with
    | true => exact ⟨[], .ended drawn ended (.rest _), rfl⟩
    | false => exact ⟨[p.advance.current.value], .token drawn ended (.rest _), rfl⟩

theorem of_end (ended : p.advance.current.value.isEnd = true) : Uses p [] p.advance := by
  simpa [ended] using advance p

theorem of_token (inside : p.advance.current.value.isEnd = false) :
    Uses p [p.advance.current.value] p.advance := by
  simpa [inside] using advance p

/-- A token that is read and put back is as good as unread. -/
theorem of_pushBack (inside : p.advance.current.value.isEnd = false) :
    Uses p [] p.advance.pushBack := by
  rw [pushBack_advance]
  intro sound
  obtain ⟨soundBefore, moves⟩ := of_token inside sound
  refine ⟨soundBefore, fun tidy => ?_⟩
  obtain ⟨_, drawn, draws, balance⟩ := moves tidy
  rw [held_advance, List.append_nil] at balance
  refine ⟨fun token member => ?_, drawn, draws, balance⟩
  rw [List.mem_singleton.mp member]
  exact inside

end Uses

end Parser

/-- The tokens under the children that have been taken. -/
def Matcher.tokens (m : Matcher) : List Token := m.children.flatMap Tree.tokens

theorem Matcher.tokens_offer {m m' : Matcher} {tree : Tree} (taken : m.offer? tree = some m') :
    m'.tokens = m.tokens ++ tree.tokens := by
  simp [tokens, children_of_offer taken]

namespace Parser

variable {σ : Type} [TokenSupply σ] {read : Reader σ} {m m' : Matcher} {p p' : Parser σ}

/-- The tokens under a name that is handed over. -/
def calleeTokens (callee? : Option Tree) : List Token := callee?.toList.flatMap Tree.tokens

/-- A call takes its name from the end of what the term has. -/
theorem tokens_handOver (rule : Rule) (m : Matcher) :
    m.tokens = (handOver rule m).2.tokens ++ calleeTokens (handOver rule m).1 := by
  unfold handOver
  split
  · unfold Matcher.pop
    split
    · next empty => simp [calleeTokens]
    · next tree rest taken =>
      simp [Matcher.tokens, Matcher.children, taken, calleeTokens]
  · simp [calleeTokens]

/-- A reader puts into its tree the name it is handed, the current token and whatever it uses up. -/
def Conserves (read : Reader σ) : Prop :=
  ∀ rule callee? p tree p', (read rule callee? p).val = (.ok tree, p') →
    ∃ used, Uses p used p' ∧ calleeTokens callee? ++ p.current.value :: used = tree.value.tokens

theorem uses_of_child (conserves : Conserves read) {tree : Located Tree}
    (found : child read m p = (.ok (some tree), m', p')) :
    ∃ used, Uses p used p' ∧ m.tokens ++ used = m'.tokens ++ tree.value.tokens := by
  cases finds_of_child found with
  | token inside => exact ⟨_, .of_token inside, rfl⟩
  | @production inside rule _ _ _ same =>
    obtain ⟨used, uses, balance⟩ := conserves _ _ _ _ _ same
    refine ⟨_, (Uses.of_token inside).append uses, ?_⟩
    rw [← balance, tokens_handOver rule m, List.append_assoc, List.singleton_append]

theorem uses_of_child_end (found : child read m p = (.ok none, m', p')) :
    m' = m ∧ Uses p [] p' := by
  cases finds_of_child found with
  | ended ended => exact ⟨rfl, .of_end ended⟩

theorem uses_of_fill (named : Named read) (conserves : Conserves read) {span span' : Span}
    (filled : fill read m span p = (.ok (m', span'), p')) :
    ∃ used, Uses p used p' ∧ m.tokens ++ used = m'.tokens := by
  fun_induction fill read m span p with
  | case1 m span p _ =>
    cases filled
    exact ⟨[], .nothing _, List.append_nil _⟩
  | case3 m span p _ m' p' found =>
    cases filled
    obtain ⟨rfl, uses⟩ := uses_of_child_end found
    exact ⟨[], uses, List.append_nil _⟩
  | case4 m span p _ _ _ tree found _ m'' taken ih =>
    obtain ⟨first, front, balance⟩ := uses_of_child conserves found
    obtain ⟨second, back, balanceLater⟩ := ih filled
    refine ⟨first ++ second, front.append back, ?_⟩
    rw [← List.append_assoc, balance, ← Matcher.tokens_offer taken, balanceLater]
  | case5 m span p _ m' p' tree found _ _ token leaf =>
    cases filled
    obtain ⟨rfl, rfl, inside⟩ := advance_of_child_leaf named found leaf
    exact ⟨[], .of_pushBack inside, List.append_nil _⟩
  | case2 | case6 => cases filled

theorem uses_of_open (conserves : Conserves read) {rule : Rule} {callee? : Option Tree} {span : Span}
    (opened : open_ read rule callee? p = (.ok (m, span), p')) :
    ∃ used, Uses p used p' ∧ calleeTokens callee? ++ p.current.value :: used = m.tokens := by
  cases begins_of_open opened with
  | callee first second =>
    refine ⟨[], .nothing p, ?_⟩
    rw [Matcher.tokens_offer second, Matcher.tokens_offer first]
    simp [calleeTokens, Matcher.tokens, Matcher.ofRule, Matcher.children]
  | construct _ _ same taken =>
    obtain ⟨used, uses, balance⟩ := conserves _ _ _ _ _ same
    refine ⟨used, uses, ?_⟩
    rw [Matcher.tokens_offer taken, ← balance]
    rfl
  | token _ taken =>
    refine ⟨[], .nothing p, ?_⟩
    rw [Matcher.tokens_offer taken]
    rfl

theorem reader_conserves (room : Nat) : Conserves (reader room : Reader σ) := by
  induction room with
  | zero => exact fun _ _ _ _ _ read => nomatch read
  | succ room ih =>
    intro rule callee? p tree p' read
    obtain ⟨m, span, q, m', q', opened, filled, -, same, rfl⟩ := exists_filled read
    obtain ⟨first, front, balance⟩ := uses_of_open ih opened
    obtain ⟨second, back, balanceLater⟩ := uses_of_fill (reader_named room) ih filled
    refine ⟨first ++ second, (front.append back).noted _, ?_⟩
    rw [same, Matcher.toTree, Tree.tokens_branch, ← Matcher.tokens, ← balanceLater, ← balance]
    simp

/-- What a call of the parser may ask for. -/
inductive Call where
  | from_ (initial? : Option Rule)
  | within (enclosing : Rule)

def Call.answer (call : Call) (p : Parser σ) : Except SyntaxError (Option Tree) × Parser σ :=
  match call with
  | from_ initial? => p.parseFrom initial?
  | within enclosing => p.parseWithin enclosing

/-- The trees that calls return one after the other, if none of them fails. -/
def answers : List Call → Parser σ → Option (List Tree × Parser σ)
  | [], p => some ([], p)
  | call :: rest, p =>
    match call.answer p with
    | (.ok tree?, p) => (answers rest p).map fun (trees, p) => (tree?.toList ++ trees, p)
    | (.error _, _) => none

omit [TokenSupply σ] in
private theorem eq_of_finish {α : Type} {out : Except SyntaxError α × Parser σ} {a : α}
    (finished : finish out = (.ok a, p')) : out = (.ok a, p') ∧ p'.failure? = none := by
  unfold finish at finished
  split at finished
  · cases finished
  · next sound =>
    subst finished
    exact ⟨rfl, sound⟩

private theorem uses_of_reader {room : Nat} {rule : Rule} {tree : Located Tree}
    (inside : p.advance.current.value.isEnd = false)
    (read : (reader room rule none p.advance).val = (.ok tree, p')) :
    Uses p tree.value.tokens p' := by
  obtain ⟨used, uses, balance⟩ := reader_conserves room rule none p.advance tree p' read
  rw [← balance]
  exact (Uses.of_token inside).append uses

private theorem uses_of_outermost {tree? : Option (Located Tree)}
    (read : p.outermost = (.ok tree?, p')) :
    Uses p (tree?.toList.flatMap fun tree => tree.value.tokens) p' := by
  unfold outermost at read
  dsimp only at read
  split at read
  · next ended =>
    cases read
    exact .of_end ended
  · next more =>
    have inside : p.advance.current.value.isEnd = false := by simpa using more
    split at read
    · cases read
      exact .of_token inside
    · obtain ⟨mapped, rfl⟩ := Prod.mk.inj read
      obtain ⟨tree, same, rfl⟩ := Except.ok_of_map mapped
      simpa using uses_of_reader inside (Prod.ext same rfl)

private theorem tokens_of_child {tree? : Except SyntaxError (Option (Located Tree))}
    (found : child read m p = (tree?, m', p')) (empty : m.tokens = []) : m'.tokens = [] := by
  cases finds_of_child found with
  | ended | token => exact empty
  | @production _ rule | @failed _ rule =>
    rw [tokens_handOver rule m] at empty
    exact (List.append_eq_nil_iff.mp empty).1

private theorem uses_of_answer {call : Call} {tree? : Option Tree}
    (answered : call.answer p = (.ok tree?, p')) :
    p'.failure? = none ∧ Uses p (tree?.toList.flatMap Tree.tokens) p' := by
  cases call with
  | from_ initial? =>
    obtain ⟨out, sound⟩ := eq_of_finish answered
    refine ⟨sound, ?_⟩
    obtain ⟨mapped, rfl⟩ := Prod.mk.inj out
    obtain ⟨located?, read, rfl⟩ := Except.ok_of_map mapped
    cases initial? with
    | none =>
      have uses := uses_of_outermost (Prod.ext read rfl)
      cases located? <;> simpa using uses
    | some rule =>
      dsimp only at read ⊢
      split at read
      · next ended =>
        cases read
        rw [if_pos ended]
        exact .of_end ended
      · next more =>
        have inside : p.advance.current.value.isEnd = false := by simpa using more
        obtain ⟨tree, same, rfl⟩ := Except.ok_of_map read
        rw [if_neg more]
        simpa using uses_of_reader inside (Prod.ext same rfl)
  | within enclosing =>
    obtain ⟨out, sound⟩ := eq_of_finish answered
    refine ⟨sound, ?_⟩
    obtain ⟨mapped, rfl⟩ := Prod.mk.inj out
    obtain ⟨located?, read, rfl⟩ := Except.ok_of_map mapped
    cases located? with
    | none => exact (uses_of_child_end (Prod.ext read rfl)).2
    | some tree =>
      have found : child (reader p.limit) (.ofRule enclosing) p = (.ok (some tree), _, _) :=
        Prod.ext read rfl
      obtain ⟨used, uses, balance⟩ := uses_of_child (reader_conserves _) found
      rw [tokens_of_child found rfl, show (Matcher.ofRule enclosing).tokens = [] from rfl] at balance
      rw [List.nil_append, List.nil_append] at balance
      subst balance
      simpa using uses

private theorem uses_of_answers {calls : List Call} {trees : List Tree}
    (sound : p.failure? = none) (answered : answers calls p = some (trees, p')) :
    p'.failure? = none ∧ Uses p (trees.flatMap Tree.tokens) p' := by
  induction calls generalizing p trees with
  | nil =>
    cases answered
    exact ⟨sound, .nothing _⟩
  | cons call rest ih =>
    unfold answers at answered
    split at answered
    · next tree? q same =>
      obtain ⟨⟨later, last⟩, answeredLater, whole⟩ := Option.map_eq_some_iff.mp answered
      obtain ⟨rfl, rfl⟩ := Prod.mk.inj whole
      obtain ⟨soundBetween, front⟩ := uses_of_answer same
      obtain ⟨soundAfter, back⟩ := ih soundBetween answeredLater
      refine ⟨soundAfter, ?_⟩
      rw [List.flatMap_append]
      exact front.append back
    · cases answered

/-- From a fresh parser on, what has been drawn is in the trees or held. -/
private theorem draws_of_uses {supply : σ} {limit : Nat} {used : List Token}
    (sound : p'.failure? = none) (uses : Uses (ofSupply supply limit) used p') :
    p'.Tidy ∧ Draws supply (used ++ p'.held) p'.supply := by
  obtain ⟨_, moves⟩ := uses sound
  obtain ⟨tidy, drawn, draws, balance⟩ := moves fun _ absent => nomatch absent
  rw [← balance]
  exact ⟨tidy, draws⟩

private theorem pushedBack_of_end (tidy : p.Tidy) (ended : p.advance.current.value.isEnd = true) :
    p.pushedBack? = none := by
  cases back : p.pushedBack? with
  | none => rfl
  | some located =>
    have inside := tidy located.value (by simp [held, back])
    rw [advance_of_pushedBack back] at ended
    exact absurd ended (by simp [inside])

/-- No token is lost, doubled or moved. However often the parser is asked, the tokens under the
trees and the one that is put back are those that have been drawn. A class that is read has all
tokens up to the end of the input under it. -/
theorem tokens_conserved (supply : σ) (limit : Nat) :
    (∀ calls trees p, answers calls (ofSupply supply limit) = some (trees, p) →
      Draws supply (trees.flatMap Tree.tokens ++ p.held) p.supply ∧
        ∀ drawn, Draws supply drawn p.supply → drawn = trees.flatMap Tree.tokens ++ p.held) ∧
    ∀ tree p, (ofSupply supply limit).parseClass = (.ok tree, p) →
      (∃ reached token, Draws supply tree.tokens reached ∧
        TokenSupply.next reached = (.ok token, p.supply) ∧ token.value.isEnd = true) ∧
        ∀ tokens, Yields supply tokens → tree.tokens = tokens := by
  constructor
  · intro calls trees p answered
    obtain ⟨sound, uses⟩ := uses_of_answers rfl answered
    obtain ⟨_, draws⟩ := draws_of_uses sound uses
    exact ⟨draws, fun _ others => others.unique draws⟩
  · intro tree p parsed
    obtain ⟨out, sound⟩ := eq_of_finish parsed
    split at out
    · cases out
    · cases out
    · cases out
    · next span _ read =>
      dsimp only at out
      split at out
      · next ended =>
        cases out
        have uses := uses_of_outermost (Prod.ext read rfl)
        obtain ⟨soundBefore, _⟩ := Uses.of_end ended sound
        obtain ⟨tidy, draws⟩ := draws_of_uses soundBefore uses
        have fresh := pushedBack_of_end tidy ended
        obtain ⟨_, drawn⟩ := next_of_advance fresh sound
        have draws : Draws supply tree.tokens (ofSupply supply limit).outermost.2.supply := by
          simpa [held, fresh] using draws
        exact ⟨⟨_, _, draws, drawn, ended⟩, fun tokens yields => draws.eq_of_yields drawn ended yields⟩
      · cases out

/-- An expression is read up to the semicolon, which is held. -/
theorem tokens_conserved_of_expression :
    ∃ trees p, answers [.from_ (some .expression)]
        (ofSupply (Scanner.ofText "x + 1;".toList) Limits.parseDepth) = some (trees, p) ∧
      p.held = [.fixed (.sign .semicolon)] ∧
      Draws (Scanner.ofText "x + 1;".toList) (trees.flatMap Tree.tokens ++ p.held) p.supply := by
  have reads : (match answers [.from_ (some .expression)]
      (ofSupply (Scanner.ofText "x + 1;".toList) Limits.parseDepth) with
      | some (_, p) => decide (p.held = [.fixed (.sign .semicolon)])
      | none => false) = true := by
    decide +kernel
  split at reads
  · next trees p answered =>
    exact ⟨trees, p, answered, of_decide_eq_true reads,
      ((tokens_conserved _ _).1 _ trees p answered).1⟩
  · cases reads

end Parser

end NandTools
