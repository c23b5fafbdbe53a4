import NandTools.Proofs.Parser.Step
import NandTools.Proofs.Token.Yields

/-! The tokens ahead of the parser: one that was put back, and those still in the supply. -/
namespace NandTools.Parser

open NandTools.Source

variable {σ : Type} [TokenSupply σ] {p : Parser σ} {token : Token} {rest : List Token}

/-- The parser has these tokens ahead of it, and the end of the input after them. -/
def Awaits (p : Parser σ) (tokens : List Token) : Prop :=
  p.failure? = none ∧
    match p.pushedBack? with
    | none => Yields p.supply tokens
    | some token =>
      token.value.isEnd = false ∧ ∃ rest, tokens = token.value :: rest ∧ Yields p.supply rest

theorem awaits_ofSupply {supply : σ} {tokens : List Token} (yields : Yields supply tokens)
    (limit : Nat) : (ofSupply supply limit).Awaits tokens :=
  ⟨rfl, yields⟩

/-- The next token can be had by advancing, and be put back. -/
theorem Awaits.advance_cons (awaits : p.Awaits (token :: rest)) :
    p.advance.current.value = token ∧ token.isEnd = false ∧ p.advance.Awaits rest ∧
      p.advance.pushBack.Awaits (token :: rest) := by
  obtain ⟨sound, ahead⟩ := awaits
  cases back : p.pushedBack? with
  | none =>
    rw [back] at ahead
    cases ahead with
    | more drawn inside later =>
      rw [advance_of_drawn sound back drawn]
      exact ⟨rfl, inside, ⟨sound, by simpa [back] using later⟩, sound, inside, _, rfl, later⟩
  | some located =>
    rw [back] at ahead
    obtain ⟨inside, after, same, later⟩ := ahead
    obtain ⟨rfl, rfl⟩ := List.cons.inj same
    rw [advance_of_pushedBack back]
    exact ⟨rfl, inside, ⟨sound, later⟩, sound, inside, _, rfl, later⟩

theorem Awaits.advance_nil (awaits : p.Awaits []) :
    p.advance.current.value.isEnd = true ∧ p.advance.Awaits [] := by
  obtain ⟨sound, ahead⟩ := awaits
  cases back : p.pushedBack? with
  | none =>
    rw [back] at ahead
    cases ahead with
    | ended dry =>
      obtain ⟨_, _, drawn, ended, dry⟩ := dry.next
      rw [advance_of_drawn sound back drawn]
      exact ⟨ended, sound, by simpa [back] using .ended dry⟩
  | some located =>
    rw [back] at ahead
    obtain ⟨_, _, same, _⟩ := ahead
    cases same

end NandTools.Parser
