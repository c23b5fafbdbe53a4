import NandTools.Proofs.Parser.Conservation

/-! What a parser does with its tokens, move by move. Moves that are in order lead from one state of
a parser to another: every answer of the supply is asked for once, and every token that was drawn
has been read and not put back, or is held. -/
namespace NandTools

open NandTools.Source

namespace Parser

variable {σ : Type} [TokenSupply σ]

/-- The parser advances, or puts the current token back, or hands the newest child of a term, which
was read from the token `origin?`, over to the call that begins. The state is the one that it does
so in. -/
inductive Move (σ : Type) where
  | advance (p : Parser σ)
  | putBack (p : Parser σ)
  | handOver (callee? : Option Tree) (origin? : Option (Located Token)) (p : Parser σ)

namespace Move

/-- When a move is in order. A token is put back where another one was read before it and none is
held. What is handed over is a name, which was read from the token before the current one. -/
def InOrder : Move σ → Prop
  | advance _ => True
  | putBack p => p.previous?.isSome = true ∧ p.pushedBack? = none
  | handOver callee? origin? p =>
    ∃ name, callee? = some (.leaf name.value) ∧ origin? = some name ∧ p.previous? = some name

/-- The answer of the supply that is asked for. -/
def asked : Move σ → List (Except LexicalError (Located Token))
  | advance p =>
    match p.pushedBack?, p.failure? with
    | none, none => [(TokenSupply.next p.supply).1]
    | _, _ => []
  | putBack _ | handOver .. => []

/-- The tokens that have been read after a move. The one that is put back was read last. -/
def keep (read : List (Located Token)) : Move σ → List (Located Token)
  | advance p =>
    if p.advance.current.value.isEnd then read else read ++ [p.advance.current]
  | putBack _ => read.dropLast
  | handOver .. => read

end Move

/-- The tokens that have been read and not put back. -/
def kept (moves : List (Move σ)) : List (Located Token) := moves.foldl Move.keep []

/-- The answers that are tokens of the input. -/
def tokensOf (answers : List (Except LexicalError (Located Token))) : List (Located Token) :=
  answers.flatMap fun
    | .ok token => if token.value.isEnd then [] else [token]
    | .error _ => []

theorem tokensOf_append (first second : List (Except LexicalError (Located Token))) :
    tokensOf (first ++ second) = tokensOf first ++ tokensOf second :=
  List.flatMap_append

/-- The supply gives these answers, one after the other, on the way from one state to another. -/
inductive Gives : σ → List (Except LexicalError (Located Token)) → σ → Prop where
  | rest (s : σ) : Gives s [] s
  | next {s last : σ} {answers : List (Except LexicalError (Located Token))}
      (later : Gives (TokenSupply.next s).2 answers last) :
      Gives s ((TokenSupply.next s).1 :: answers) last

theorem Gives.append {s s' last : σ} {first second : List (Except LexicalError (Located Token))}
    (before : Gives s first s') (after : Gives s' second last) :
    Gives s (first ++ second) last := by
  induction before with
  | rest => exact after
  | next _ ih => exact .next (ih after)

/-- A supply that gave these answers had their tokens ahead, and has the others still. Once an end
has been among the answers there are no others. -/
theorem Gives.yields {s last : σ} {answers : List (Except LexicalError (Located Token))}
    {tokens : List Token} (given : Gives s answers last) (yields : Yields s tokens) :
    ∃ rest, Yields last rest ∧ tokens = (tokensOf answers).map (·.value) ++ rest ∧
      ∀ token, .ok token ∈ answers → token.value.isEnd = true → rest = [] := by
  induction given generalizing tokens with
  | rest s => exact ⟨tokens, yields, rfl, fun _ absent => nomatch absent⟩
  | @next s last answers later ih =>
    cases yields with
    | ended dry =>
      obtain ⟨token, s', drawn, ended, dry⟩ := dry.next
      rw [drawn] at later ih ⊢
      obtain ⟨rest, yields, same, _⟩ := ih (.ended dry)
      have nothing : rest = [] := (List.append_eq_nil_iff.mp same.symm).2
      exact ⟨rest, yields, by simpa [tokensOf, ended] using same, fun _ _ _ => nothing⟩
    | more drawn inside ahead =>
      rw [drawn] at later ih ⊢
      obtain ⟨rest, yields, same, last⟩ := ih ahead
      refine ⟨rest, yields, by simp [tokensOf, inside, same], fun token member ended => ?_⟩
      rcases List.mem_cons.mp member with first | member
      · cases first
        rw [inside] at ended
        cases ended
      · exact last token member ended

section Balance

variable {p : Parser σ}

/-- The token that is advanced to is the one that was held, or else the next answer of the supply. -/
theorem advance_balance (tidy : p.Tidy) :
    p.pushedBack?.toList ++ tokensOf (Move.advance p).asked =
        (if p.advance.current.value.isEnd then [] else [p.advance.current]) ∧
      p.advance.pushedBack? = none ∧
      Gives p.supply (Move.advance p).asked p.advance.supply := by
  have ended : Token.endOfInput.isEnd = true := rfl
  cases back : p.pushedBack? with
  | some token =>
    have inside : token.value.isEnd = false := tidy token.value (by simp [held, back])
    rw [advance_of_pushedBack back]
    refine ⟨?_, rfl, ?_⟩
    · simp [Move.asked, back, inside, tokensOf]
    · simpa [Move.asked, back] using Gives.rest p.supply
  | none =>
    cases failed : p.failure? with
    | some e =>
      rw [advance_of_failed failed back]
      refine ⟨?_, back, ?_⟩
      · simp [Move.asked, back, failed, tokensOf, ended]
      · simpa [Move.asked, back, failed] using Gives.rest p.supply
    | none =>
      have gives : Gives p.supply [(TokenSupply.next p.supply).1] (TokenSupply.next p.supply).2 :=
        .next (.rest _)
      rcases drawn : TokenSupply.next p.supply with ⟨e | token, supply⟩
      · rw [drawn] at gives
        rw [advance_of_failing failed back drawn]
        refine ⟨?_, back, ?_⟩
        · simp [Move.asked, back, failed, drawn, tokensOf, ended]
        · simpa [Move.asked, back, failed, drawn] using gives
      · rw [drawn] at gives
        rw [advance_of_drawn failed back drawn]
        refine ⟨?_, back, ?_⟩
        · simp [Move.asked, back, failed, drawn, tokensOf]
        · simpa [Move.asked, back, failed, drawn] using gives

/-- A token that is put back is held. -/
theorem putBack_balance (inside : p.advance.current.value.isEnd = false) :
    p.advance.pushBack.pushedBack? = some p.advance.current ∧
      p.advance.pushBack.supply = p.advance.supply ∧ p.advance.pushBack.Tidy := by
  rw [pushBack_advance]
  exact ⟨rfl, rfl, by simpa [Tidy, held] using inside⟩

omit [TokenSupply σ] in
theorem tidy_of_free (free : p.pushedBack? = none) : p.Tidy := by
  simp [Tidy, held, free]

end Balance

/-- The moves lead from one state of the parser to another, and they are in order. A failure may have
been reported in between, and what is not about tokens may have changed. -/
inductive Leads : Parser σ → List (Move σ) → Parser σ → Prop where
  | rest (p : Parser σ) : Leads p [] p
  | advance {p q : Parser σ} {moves : List (Move σ)} (later : Leads p.advance moves q) :
      Leads p (.advance p :: moves) q
  | putBack {p q : Parser σ} {moves : List (Move σ)}
      (inside : p.advance.current.value.isEnd = false)
      (later : Leads p.advance.pushBack moves q) :
      Leads p (.advance p :: .putBack p.advance :: moves) q
  | handOver {callee? : Option Tree} {origin? : Option (Located Token)} {p q : Parser σ}
      {moves : List (Move σ)} (inOrder : (Move.handOver callee? origin? p).InOrder)
      (later : Leads p moves q) : Leads p (.handOver callee? origin? p :: moves) q
  | reported {p q : Parser σ} {moves : List (Move σ)}
      (later : Leads { p with failure? := none } moves q) : Leads p moves q
  | aside {p q : Parser σ} {moves : List (Move σ)} (limit : Nat) (notes : List ParserNote)
      (later : Leads { p with limit, notes } moves q) : Leads p moves q

namespace Leads

variable {p q r : Parser σ} {moves first second : List (Move σ)}

theorem append (before : Leads p first q) (after : Leads q second r) :
    Leads p (first ++ second) r := by
  induction before with
  | rest => exact after
  | advance _ ih => exact .advance (ih after)
  | putBack inside _ ih => exact .putBack inside (ih after)
  | handOver inOrder _ ih => exact .handOver inOrder (ih after)
  | reported _ ih => exact .reported (ih after)
  | aside limit notes _ ih => exact .aside limit notes (ih after)

theorem beside (leads : Leads p moves q) (limit : Nat) (notes : List ParserNote) :
    Leads p moves { q with limit, notes } := by
  have still : Leads q [] { q with limit, notes } := .aside limit notes (.rest _)
  simpa using leads.append still

/-- What is left to do when an outcome is final makes no move. -/
theorem finish {α : Type} {out : Except SyntaxError α × Parser σ} (leads : Leads p moves out.2) :
    Leads p moves (Parser.finish out).2 := by
  unfold Parser.finish
  split
  · have still : Leads out.2 [] { out.2 with failure? := none } := .reported (.rest _)
    simpa using leads.append still
  · exact leads

theorem inOrder (leads : Leads p moves q) : ∀ move ∈ moves, move.InOrder := by
  induction leads with
  | rest => exact fun _ absent => nomatch absent
  | advance _ ih => exact List.forall_mem_cons.mpr ⟨trivial, ih⟩
  | @putBack p _ _ _ _ ih =>
    have free : p.advance.pushedBack? = none := by
      simpa [held] using held_advance p
    refine List.forall_mem_cons.mpr ⟨trivial, List.forall_mem_cons.mpr ⟨⟨?_, free⟩, ih⟩⟩
    rw [previous_advance]
    rfl
  | handOver inOrder _ ih => exact List.forall_mem_cons.mpr ⟨inOrder, ih⟩
  | reported _ ih => exact ih
  | aside _ _ _ ih => exact ih

/-- No more tokens are ahead afterwards. -/
theorem pending_le (leads : Leads p moves q) : q.pending ≤ p.pending := by
  induction leads with
  | rest => exact Nat.le_refl _
  | @advance p _ _ _ ih => exact Nat.le_trans ih (pending_advance p)
  | @putBack p _ _ inside _ ih =>
    exact Nat.le_trans ih (pending_pushBack (pending_advance_lt inside))
  | handOver _ _ ih => exact ih
  | reported _ ih => exact ih
  | aside _ _ _ ih => exact ih

/-- The supply has been asked for one answer after the other, and their tokens are those that were
kept and the one that is held. -/
theorem balance (leads : Leads p moves q) (tidy : p.Tidy) :
    q.Tidy ∧ Gives p.supply (moves.flatMap Move.asked) q.supply ∧
      ∀ read, ∃ later, moves.foldl Move.keep read = read ++ later ∧
        p.pushedBack?.toList ++ tokensOf (moves.flatMap Move.asked) =
          later ++ q.pushedBack?.toList := by
  induction leads with
  | rest p => exact ⟨tidy, .rest _, fun read => ⟨[], (List.append_nil _).symm, List.append_nil _⟩⟩
  | @advance p q moves later ih =>
    obtain ⟨current, free, gives⟩ := advance_balance tidy
    obtain ⟨tidy, givesLater, balanced⟩ := ih (tidy_of_free free)
    refine ⟨tidy, gives.append givesLater, fun read => ?_⟩
    obtain ⟨after, same, balance⟩ := balanced (Move.keep read (.advance p))
    rw [free, Option.toList_none, List.nil_append] at balance
    refine ⟨(if p.advance.current.value.isEnd then [] else [p.advance.current]) ++ after, ?_, ?_⟩
    · rw [List.foldl_cons, same, Move.keep]
      split <;> simp
    · rw [List.flatMap_cons, tokensOf_append, ← List.append_assoc, current, balance,
        List.append_assoc]
  | @putBack p q moves inside later ih =>
    obtain ⟨current, free, gives⟩ := advance_balance tidy
    obtain ⟨held, supply, tidyBack⟩ := putBack_balance inside
    obtain ⟨tidy, givesLater, balanced⟩ := ih tidyBack
    rw [supply] at givesLater
    refine ⟨tidy, gives.append givesLater, fun read => ?_⟩
    obtain ⟨after, same, balance⟩ := balanced read
    refine ⟨after, ?_, ?_⟩
    · -- Reading the token and putting it back comes to nothing.
      rw [List.foldl_cons, List.foldl_cons, Move.keep, inside]
      simpa [Move.keep] using same
    · rw [inside] at current
      rw [List.flatMap_cons, List.flatMap_cons, tokensOf_append, ← List.append_assoc, current,
        ← balance, held]
      rfl
  | handOver _ _ ih => exact ih tidy
  | reported _ ih => exact ih tidy
  | aside _ _ _ ih => exact ih tidy

end Leads

end Parser

end NandTools
