import NandTools.Token.Stream

/-! The tokens that a supply has in store, and those drawn from it so far. -/
namespace NandTools

open NandTools.Source

variable {σ : Type} [TokenSupply σ]

/-- Nothing but the end of the input is drawn from here on. -/
def Dry (s : σ) : Prop :=
  ∃ dry : σ → Prop, dry s ∧ ∀ s, dry s → ∃ token s',
    TokenSupply.next s = (.ok token, s') ∧ token.value.isEnd = true ∧ dry s'

theorem Dry.next {s : σ} (dry : Dry s) : ∃ token s',
    TokenSupply.next s = (.ok token, s') ∧ token.value.isEnd = true ∧ Dry s' := by
  obtain ⟨holds, here, goesOn⟩ := dry
  obtain ⟨token, s', drawn, ended, there⟩ := goesOn s here
  exact ⟨token, s', drawn, ended, holds, there, goesOn⟩

/-- The supply yields these tokens one by one, and then the end of the input for good. -/
inductive Yields : σ → List Token → Prop where
  | ended {s : σ} (dry : Dry s) : Yields s []
  | more {s s' : σ} {token : Located Token} {rest : List Token}
      (drawn : TokenSupply.next s = (.ok token, s')) (inside : token.value.isEnd = false)
      (later : Yields s' rest) : Yields s (token.value :: rest)

theorem Yields.unique {s : σ} {tokens others : List Token} (first : Yields s tokens)
    (second : Yields s others) : tokens = others := by
  induction first generalizing others with
  | ended dry =>
    cases second with
    | ended => rfl
    | more drawn inside =>
      obtain ⟨_, _, drawn', ended, _⟩ := dry.next
      cases drawn.symm.trans drawn'
      rw [inside] at ended
      cases ended
  | more drawn inside _ ih =>
    cases second with
    | ended dry =>
      obtain ⟨_, _, drawn', ended, _⟩ := dry.next
      cases drawn.symm.trans drawn'
      rw [inside] at ended
      cases ended
    | more drawn' _ later =>
      cases drawn.symm.trans drawn'
      rw [ih later]

/-- These are the tokens drawn on the way from one state of the supply to another, ends of the
input left out. -/
inductive Draws : σ → List Token → σ → Prop where
  | rest (s : σ) : Draws s [] s
  | token {s s' last : σ} {token : Located Token} {tokens : List Token}
      (drawn : TokenSupply.next s = (.ok token, s')) (inside : token.value.isEnd = false)
      (later : Draws s' tokens last) : Draws s (token.value :: tokens) last
  | ended {s s' last : σ} {token : Located Token} {tokens : List Token}
      (drawn : TokenSupply.next s = (.ok token, s')) (end_ : token.value.isEnd = true)
      (later : Draws s' tokens last) : Draws s tokens last

namespace Draws

variable {s s' last : σ} {tokens others : List Token}

theorem append (first : Draws s tokens s') (second : Draws s' others last) :
    Draws s (tokens ++ others) last := by
  induction first with
  | rest => exact second
  | token drawn inside _ ih => exact .token drawn inside (ih second)
  | ended drawn end_ _ ih => exact .ended drawn end_ (ih second)

private theorem left_le (draws : Draws s tokens last) :
    TokenSupply.left last + tokens.length ≤ TokenSupply.left s := by
  induction draws with
  | rest => exact Nat.le_refl _
  | @token s s' last token tokens drawn inside _ ih =>
    have first : (TokenSupply.next s).1 = .ok token := by rw [drawn]
    have fewer := TokenSupply.left_next_lt first inside
    simp only [drawn] at fewer
    rw [List.length_cons]
    omega
  | @ended s s' last token tokens drawn _ _ ih =>
    have fewer := TokenSupply.left_next s
    rw [drawn] at fewer
    exact Nat.le_trans ih fewer

/-- No token is drawn on a way that leads back. -/
private theorem nil_of_loop (draws : Draws s tokens s) : tokens = [] := by
  have fewer := draws.left_le
  exact List.length_eq_zero_iff.mp (by omega)

theorem unique (first : Draws s tokens last) (second : Draws s others last) : tokens = others := by
  induction first generalizing others with
  | rest => exact second.nil_of_loop.symm
  | @token s s' last token tokens drawn inside later ih =>
    cases second with
    | rest => exact (Draws.token drawn inside later).nil_of_loop
    | token drawn' inside' later' =>
      cases drawn.symm.trans drawn'
      rw [ih later']
    | ended drawn' end_ _ =>
      cases drawn.symm.trans drawn'
      rw [inside] at end_
      cases end_
  | @ended s s' last token tokens drawn end_ later ih =>
    cases second with
    | rest => exact (Draws.ended drawn end_ later).nil_of_loop
    | token drawn' inside' _ =>
      cases drawn.symm.trans drawn'
      rw [end_] at inside'
      cases inside'
    | ended drawn' _ later' =>
      cases drawn.symm.trans drawn'
      exact ih later'

/-- What is drawn up to the first end of the input that is met is what the supply yields. -/
theorem eq_of_yields (draws : Draws s tokens s') {token : Located Token}
    (met : TokenSupply.next s' = (.ok token, last)) (end_ : token.value.isEnd = true)
    (yields : Yields s others) : tokens = others := by
  induction draws generalizing others with
  | rest =>
    cases yields with
    | ended => rfl
    | more drawn inside _ =>
      cases drawn.symm.trans met
      rw [end_] at inside
      cases inside
  | token drawn inside _ ih =>
    cases yields with
    | ended dry =>
      obtain ⟨_, _, drawn', ended, _⟩ := dry.next
      cases drawn.symm.trans drawn'
      rw [inside] at ended
      cases ended
    | more drawn' _ later' =>
      cases drawn.symm.trans drawn'
      rw [ih met later']
  | ended drawn ended _ ih =>
    cases yields with
    | ended dry =>
      obtain ⟨_, _, drawn', _, dry⟩ := dry.next
      cases drawn.symm.trans drawn'
      exact ih met (.ended dry)
    | more drawn' inside' _ =>
      cases drawn.symm.trans drawn'
      rw [ended] at inside'
      cases inside'

end Draws

namespace TokenStream

variable {s s' : TokenStream} {tokens : List (Located Token)} {last : Located Token}

/-- What the stream has ahead. -/
def Holds (s : TokenStream) (tokens : List (Located Token)) (last : Located Token) : Prop :=
  s.tokens.toList.drop s.cursor = tokens ++ [last]

theorem Holds.current (holds : s.Holds tokens last) : s.current? = (tokens ++ [last]).head? := by
  rw [← show _ = _ from holds, List.head?_drop, Array.getElem?_toList, current?]

theorem next_of_last (holds : s.Holds [] last) (ended : last.value.isEnd = true) :
    s.next = (last, s) := by
  rw [next, holds.current]
  simp [ended]

theorem next_of_more {token : Located Token} (holds : s.Holds (token :: tokens) last)
    (inside : token.value.isEnd = false) :
    s.next = (token, { s with cursor := s.cursor + 1 }) ∧
      { s with cursor := s.cursor + 1 }.Holds tokens last := by
  constructor
  · rw [next, holds.current]
    simp [inside]
  · rw [Holds, ← List.tail_drop, show s.tokens.toList.drop s.cursor = _ from holds]
    rfl

theorem Holds.yields (holds : s.Holds tokens last)
    (inside : ∀ token ∈ tokens, token.value.isEnd = false) (closing : last.value.isEnd = true) :
    Yields s (tokens.map (·.value)) := by
  induction tokens generalizing s with
  | nil =>
    refine .ended ⟨(· = s), rfl, ?_⟩
    rintro _ rfl
    refine ⟨last, _, ?_, closing, rfl⟩
    simp only [TokenSupply.next, next_of_last holds closing]
  | cons token rest ih =>
    have more := inside token List.mem_cons_self
    obtain ⟨drawn, holds⟩ := next_of_more holds more
    refine .more ?_ more
      (ih holds fun other member => inside other (List.mem_cons_of_mem token member))
    simp only [TokenSupply.next, drawn]

/-- What is drawn from a stream is the front of what it has ahead. -/
theorem Holds.draws (holds : s.Holds tokens last)
    (inside : ∀ token ∈ tokens, token.value.isEnd = false) (closing : last.value.isEnd = true)
    {used : List Token} (draws : Draws s used s') :
    ∃ front rest, tokens = front ++ rest ∧ front.map (·.value) = used ∧ s'.Holds rest last := by
  induction draws generalizing tokens with
  | rest s => exact ⟨[], tokens, rfl, rfl, holds⟩
  | @token s s' _ token used drawn more later ih =>
    simp only [TokenSupply.next] at drawn
    cases tokens with
    | nil =>
      rw [next_of_last holds closing] at drawn
      cases drawn
      rw [closing] at more
      cases more
    | cons first others =>
      have here := inside first List.mem_cons_self
      obtain ⟨next, holds⟩ := next_of_more holds here
      rw [next] at drawn
      cases drawn
      obtain ⟨front, rest, rfl, same, left⟩ :=
        ih holds fun other member => inside other (List.mem_cons_of_mem first member)
      exact ⟨first :: front, rest, rfl, by rw [List.map_cons, same], left⟩
  | @ended s s' _ token used drawn end_ later ih =>
    simp only [TokenSupply.next] at drawn
    cases tokens with
    | nil =>
      rw [next_of_last holds closing] at drawn
      cases drawn
      exact ih holds inside
    | cons first others =>
      have here := inside first List.mem_cons_self
      rw [(next_of_more holds here).1] at drawn
      cases drawn
      rw [here] at end_
      cases end_

/-- A stream holds the tokens that it is made of, whether or not they come with an end. -/
theorem holds_ofTokens {tokens : Array (Located Token)} {body : List (Located Token)}
    (inside : ∀ token ∈ body, token.value.isEnd = false)
    (stored : tokens.toList = body ∨
      ∃ last : Located Token, last.value.isEnd = true ∧ tokens.toList = body ++ [last])
    (index? : Option LineIndex) :
    ∃ last : Located Token, last.value.isEnd = true ∧ (ofTokens tokens index?).Holds body last := by
  unfold ofTokens
  split
  · next absent =>
    obtain rfl := Array.back?_eq_none_iff.mp absent
    rcases stored with rfl | ⟨last, _, stored⟩
    · exact ⟨_, rfl, rfl⟩
    · exact absurd stored.symm (by simp)
  · next last found =>
    rw [← Array.getLast?_toList] at found
    split
    · next ended =>
      rcases stored with rfl | ⟨end_, closing, stored⟩
      · have member := inside last (List.mem_of_getLast? found)
        rw [ended] at member
        cases member
      · exact ⟨end_, closing, stored⟩
    · next more =>
      rcases stored with rfl | ⟨end_, closing, stored⟩
      · exact ⟨_, rfl, Array.toList_push⟩
      · rw [stored, List.getLast?_concat] at found
        rw [Option.some.inj found] at closing
        exact absurd closing more

/-- A stream yields the tokens that it is made of, whether or not they come with an end. -/
theorem yields_ofTokens {tokens : Array (Located Token)} {body : List (Located Token)}
    (inside : ∀ token ∈ body, token.value.isEnd = false)
    (stored : tokens.toList = body ∨
      ∃ last : Located Token, last.value.isEnd = true ∧ tokens.toList = body ++ [last])
    (index? : Option LineIndex) : Yields (ofTokens tokens index?) (body.map (·.value)) := by
  obtain ⟨last, closing, holds⟩ := holds_ofTokens inside stored index?
  exact holds.yields inside closing

end TokenStream

end NandTools
