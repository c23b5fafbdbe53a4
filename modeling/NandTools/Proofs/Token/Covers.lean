import NandTools.Source.Span
import NandTools.Token

/-! Spans that reach from the first to the last of some tokens. -/
namespace NandTools

open NandTools.Source

/-- Tokens as they stand in a text: each takes some room, and ends where the next one may begin. -/
structure Ordered (tokens : List (Located Token)) : Prop where
  wide : ∀ token ∈ tokens, token.span.start.offset < token.span.stop.offset
  apart : tokens.Pairwise fun first second => first.span.stop.offset ≤ second.span.start.offset

theorem Ordered.of_infix {tokens part : List (Located Token)} (ordered : Ordered tokens)
    (inside : part <:+: tokens) : Ordered part where
  wide token member := ordered.wide token (inside.subset member)
  apart := ordered.apart.sublist inside.sublist

/-- The span goes from the first to the last of these tokens. -/
def Covers (tokens : List (Located Token)) (span : Span) : Prop :=
  ∃ first last, tokens.head? = some first ∧ tokens.getLast? = some last ∧
    span = ⟨first.span.start, last.span.stop⟩

namespace Covers

variable {front back whole : List (Located Token)} {a b : Span}

theorem single (token : Located Token) : Covers [token] token.span := ⟨token, token, rfl, rfl, rfl⟩

theorem ne_nil (covers : Covers front a) : front ≠ [] := by
  obtain ⟨first, _, head, _⟩ := covers
  rintro rfl
  cases head

/-- No token ends behind the last one. -/
private theorem stop_le_last {token last : Located Token} (ordered : Ordered whole)
    (inside : token ∈ whole) (final : whole.getLast? = some last) :
    token.span.stop.offset ≤ last.span.stop.offset := by
  obtain ⟨others, rfl⟩ := List.getLast?_eq_some_iff.mp final
  have wide := ordered.wide last (by simp)
  rcases List.mem_append.mp inside with earlier | same
  · have apart := (List.pairwise_append.mp ordered.apart).2.2 token earlier last (by simp)
    omega
  · obtain rfl := List.mem_singleton.mp same
    exact Nat.le_refl _

/-- Spans of tokens that follow one another are merged into that of all of them. -/
theorem merge (ordered : Ordered (front ++ back)) (covers : Covers front a) (covers' : Covers back b) :
    Covers (front ++ back) (a.merge b) := by
  obtain ⟨first, last, head, final, rfl⟩ := covers
  obtain ⟨first', last', head', final', rfl⟩ := covers'
  have apart := (List.pairwise_append.mp ordered.apart).2.2
  have before := apart first (List.mem_of_mem_head? head) first' (List.mem_of_mem_head? head')
  have between := apart last (List.mem_of_getLast? final) last' (List.mem_of_getLast? final')
  have wide := ordered.wide first (List.mem_append_left _ (List.mem_of_mem_head? head))
  have wide' := ordered.wide last' (List.mem_append_right _ (List.mem_of_getLast? final'))
  refine ⟨first, last', ?_, ?_, ?_⟩
  · rw [List.head?_append, head]
    rfl
  · rw [List.getLast?_append, final']
    rfl
  · rw [Span.merge, if_pos (by dsimp only; omega), if_neg (by dsimp only; omega)]

/-- The span of some tokens takes in that of the tokens in front of them. -/
theorem merge_front (ordered : Ordered whole) (shorter : front <+: whole) (covers : Covers front a)
    (covers' : Covers whole b) : a.merge b = b := by
  obtain ⟨first, last, head, final, rfl⟩ := covers
  obtain ⟨first', last', head', final', rfl⟩ := covers'
  obtain ⟨rest, rfl⟩ := shorter
  have same : first = first' := by
    rw [List.head?_append, head] at head'
    exact Option.some.inj head'
  have inside : last ∈ front ++ rest := List.mem_append_left _ (List.mem_of_getLast? final)
  have later := stop_le_last ordered inside final'
  subst same
  rw [Span.merge, if_neg (by dsimp only; omega), if_neg (by dsimp only; omega)]

end Covers

end NandTools
