import NandTools.Token.Scanner

/-! Anything tokens can be drawn from one at a time. Once the input is used up, every draw
yields a token of kind `endOfInput`; the bound on the tokens still to come falls with every
other token. -/
namespace NandTools

open NandTools.Source

class TokenSupply (σ : Type) where
  next : σ → Except LexicalError (Located Token) × σ
  left : σ → Nat
  left_next : ∀ s, left (next s).2 ≤ left s
  left_next_lt : ∀ {s token}, (next s).1 = .ok token → token.value.isEnd = false →
    left (next s).2 < left s

instance : TokenSupply Scanner where
  next := Scanner.next
  left s := s.rest.length
  left_next := Scanner.length_next
  left_next_lt := Scanner.length_next_lt

end NandTools
