import NandTools.Source.Excerpt
import NandTools.Token.Supply

/-! Tokens held in memory, with a cursor. The last token is always the end of the input. -/
namespace NandTools

open NandTools.Source

structure TokenStream where
  tokens : Array (Located Token)
  cursor : Nat
  index? : Option LineIndex

namespace TokenStream

/-- Close `tokens` with an end of input unless they carry one. -/
def ofTokens (tokens : Array (Located Token)) (index? : Option LineIndex) : TokenStream :=
  match tokens.back? with
  | none => ⟨#[⟨.endOfInput, .dummy⟩], 0, index?⟩
  | some last =>
    if last.value.isEnd then ⟨tokens, 0, index?⟩
    else ⟨tokens.push ⟨.endOfInput, .single last.span.stop⟩, 0, index?⟩

def current? (s : TokenStream) : Option (Located Token) := s.tokens[s.cursor]?

def peek? (s : TokenStream) : Option (Located Token) := s.tokens[s.cursor + 1]?

def advance (s : TokenStream) : TokenStream :=
  if s.cursor < s.tokens.size then { s with cursor := s.cursor + 1 } else s

def atEnd (s : TokenStream) : Bool :=
  match s.current? with
  | some token => token.value.isEnd
  | none => true

/-- The number of tokens before the closing end of input. -/
def length (s : TokenStream) : Nat := s.tokens.size - 1

def count (s : TokenStream) (kind : TokenKind) : Nat :=
  s.tokens.foldl (fun n token => if token.value.kind = kind then n + 1 else n) 0

/-- Describe an error at the current token, with its source line where the text is at hand. -/
def describe (s : TokenStream) (message : String) : String :=
  let span := (s.current?.map (·.span)).getD .dummy
  match s.index? with
  | some index => index.describe span message
  | none => s!"{message} at {span.display}"

/-- Draw the current token. The cursor never moves past an end of input. -/
def next (s : TokenStream) : Located Token × TokenStream :=
  match s.current? with
  | none => (⟨.endOfInput, .dummy⟩, s)
  | some token => (token, if token.value.isEnd then s else { s with cursor := s.cursor + 1 })

theorem left_next (s : TokenStream) :
    s.next.2.tokens.size - s.next.2.cursor ≤ s.tokens.size - s.cursor := by
  unfold next
  split
  · exact Nat.le_refl _
  · dsimp only
    split
    · exact Nat.le_refl _
    · exact Nat.sub_le_sub_left (Nat.le_succ _) _

theorem left_next_lt {s : TokenStream} (more : s.next.1.value.isEnd = false) :
    s.next.2.tokens.size - s.next.2.cursor < s.tokens.size - s.cursor := by
  unfold next at more ⊢
  split
  · next absent =>
    rw [absent] at more
    cases more
  · next token found =>
    rw [found] at more
    obtain ⟨inside, _⟩ := Array.getElem?_eq_some_iff.mp found
    simp only [more]
    simp only [Bool.false_eq_true, if_false]
    omega

instance : TokenSupply TokenStream where
  next s := (.ok s.next.1, s.next.2)
  left s := s.tokens.size - s.cursor
  left_next := left_next
  left_next_lt := by
    intro s token read more
    cases read
    exact left_next_lt more

end TokenStream

end NandTools
