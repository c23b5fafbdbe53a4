import NandTools.Proofs.Source.Slice
import NandTools.Proofs.Text.Numeral
import NandTools.Proofs.Token.Trivia
import NandTools.Token.Metrics

/-! The tokens of a text cover it but for the trivia between them. -/
namespace NandTools

open NandTools.Source

theorem Scanner.isWordStart_of_digit {c : Char} (digit : c.isDigit = true) :
    Scanner.isWordStart c = false := by
  by_cases underscore : c = '_'
  · subst underscore
    cases digit
  · have letter : c.isAlpha = false := by
      unfold Char.isAlpha Char.isUpper Char.isLower
      unfold Char.isDigit at digit
      grind
    rw [Scanner.isWordStart, letter, Bool.false_or]
    exact beq_eq_false_iff_ne.mpr underscore

namespace Token

/-- What a token is read from. -/
def source (token : Token) : List Char :=
  match token.kind with
  | .string => '"' :: token.literal.toList ++ ['"']
  | _ => token.literal.toList

/-- Whether a text is made as names are. -/
def isWord : List Char → Bool
  | [] => false
  | c :: rest => Scanner.isWordStart c && rest.all Scanner.isWordPart

/-- What a token of each kind may be read from. -/
def Valid (token : Token) : Prop :=
  match token.kind with
  | .keyword word => token.literal = word.text
  | .sign sign => token.literal = sign.char.toString
  | .integer => (Text.readNat Limits.integer token.literal.toList).isSome
  | .string => '"' ∉ token.literal.toList ∧ '\n' ∉ token.literal.toList ∧
      token.literal.utf8ByteSize ≤ Limits.stringBytes
  | .identifier => isWord token.literal.toList = true ∧
      token.literal.length ≤ Limits.identifierBytes ∧ Keyword.ofText? token.literal = none
  | .endOfInput => False

/-- What may follow a token: words and numbers take in all that can belong to them, and a division
does not begin a comment. -/
def Ends (token : Token) (rest : List Char) : Prop :=
  match token.kind with
  | .keyword _ | .identifier | .integer => ∀ c ∈ rest.head?, Scanner.isWordPart c = false
  | .sign .slash => ∀ c ∈ rest.head?, c ≠ '/' ∧ c ≠ '*'
  | _ => True

theorem Valid.inside {token : Token} (valid : token.Valid) : token.isEnd = false := by
  rw [Valid] at valid
  rw [isEnd]
  cases found : token.kind with
  | endOfInput =>
    rw [found] at valid
    exact valid.elim
  | _ => rfl

private theorem not_word_of_digits {digits : List Char}
    (numeral : ∀ digit ∈ digits, digit.isDigit = true) : isWord digits = false := by
  cases digits with
  | nil => rfl
  | cons c rest =>
    rw [isWord, Scanner.isWordStart_of_digit (numeral c List.mem_cons_self)]
    rfl

theorem Valid.source_ne_nil {token : Token} (valid : token.Valid) : token.source ≠ [] := by
  obtain ⟨kind, literal⟩ := token
  cases kind with
  | keyword word =>
    cases (valid : literal = word.text)
    cases word <;> decide
  | sign sign =>
    cases (valid : literal = sign.char.toString)
    cases sign <;> decide
  | integer =>
    obtain ⟨value, read⟩ := Option.isSome_iff_exists.mp valid
    exact (Text.isDigit_of_readNat read).1
  | string => exact List.cons_ne_nil _ _
  | identifier =>
    intro empty
    have word : isWord literal.toList = true := valid.1
    rw [show literal.toList = [] from empty] at word
    cases word
  | endOfInput => exact valid.elim

/-- A token that is made as names are is a name just when it is not a keyword. -/
theorem Valid.identifier_iff {token : Token} (valid : token.Valid)
    (word : isWord token.source = true) :
    token.kind = .identifier ↔ Keyword.ofText? token.literal = none := by
  obtain ⟨kind, literal⟩ := token
  cases kind with
  | keyword known =>
    cases (valid : literal = known.text)
    refine iff_of_false nofun ?_
    cases known <;> decide
  | sign sign =>
    cases (valid : literal = sign.char.toString)
    cases sign <;> exact absurd word (by decide)
  | integer =>
    obtain ⟨value, read⟩ := Option.isSome_iff_exists.mp valid
    have unworded := not_word_of_digits (Text.isDigit_of_readNat read).2
    exact absurd word (Bool.eq_false_iff.mp unworded)
  | string => cases word
  | identifier => exact iff_of_true rfl valid.2.2
  | endOfInput => exact valid.elim

end Token

namespace Scanner

variable {s s' : Scanner} {token : Token}

theorem byteLength_eq (text : List Char) : byteLength text = String.utf8Len text := by
  have grown (size : Nat) :
      text.foldl (fun size c => size + c.utf8Size) size = size + String.utf8Len text := by
    induction text generalizing size with
    | nil => rfl
    | cons c rest ih =>
      rw [List.foldl_cons, ih, String.utf8Len_cons]
      omega
  rw [byteLength, grown]
  exact Nat.zero_add _

private theorem stops_of_takeWhile {goes : Char → Bool} {text : List Char}
    (none : text.takeWhile goes = []) : ∀ c ∈ text.head?, goes c = false := by
  have whole := List.takeWhile_append_dropWhile (p := goes) (l := text)
  rw [none, List.nil_append] at whole
  rw [← whole]
  exact stops_of_dropWhile goes text

theorem isWordPart_of_isWordStart {c : Char} (start : isWordStart c = true) :
    isWordPart c = true := by
  rw [isWordStart, Bool.or_eq_true] at start
  rw [isWordPart, Char.isAlphanum, Bool.or_eq_true, Bool.or_eq_true]
  exact start.imp_left .inl

theorem of_number (read : s.number = (.ok token, s')) :
    token.Valid ∧ Passed s s' token.source ∧ token.Ends s'.rest := by
  unfold number at read
  dsimp only at read
  split at read
  · cases read
  · next whole =>
    split at read
    · next value valued =>
      cases read
      have tail : (s.rest.dropWhile Char.isDigit).takeWhile isWordPart = [] := by simpa using whole
      refine ⟨?_, ?_, stops_of_takeWhile tail⟩
      · rw [Token.Valid, String.toList_ofList, valued]
        rfl
      · rw [Token.source, String.toList_ofList]
        exact .skip List.takeWhile_append_dropWhile.symm
    · cases read

theorem of_word {c : Char} {rest : List Char} (found : s.rest = c :: rest)
    (start : isWordStart c = true) (read : s.word = (.ok token, s')) :
    token.Valid ∧ Passed s s' token.source ∧ token.Ends s'.rest := by
  have part := isWordPart_of_isWordStart start
  have passed : Passed s (s.skip (s.rest.takeWhile isWordPart) (s.rest.dropWhile isWordPart))
      (s.rest.takeWhile isWordPart) := .skip List.takeWhile_append_dropWhile.symm
  have letters : Token.isWord (s.rest.takeWhile isWordPart) = true := by
    rw [found, List.takeWhile_cons_of_pos part, Token.isWord, start, List.all_takeWhile]
    rfl
  have stops := stops_of_dropWhile isWordPart s.rest
  unfold word at read
  dsimp only at read
  split at read
  · cases read
  · next short =>
    split at read
    · next keyword known =>
      cases read
      refine ⟨?_, ?_, stops⟩
      · have text := List.find?_some known
        exact (eq_of_beq text).symm
      · rw [Token.source, String.toList_ofList]
        exact passed
    · next unknown =>
      cases read
      refine ⟨⟨?_, ?_, unknown⟩, ?_, stops⟩
      · rw [String.toList_ofList]
        exact letters
      · rw [String.length_ofList]
        exact Nat.le_of_not_lt short
      · rw [Token.source, String.toList_ofList]
        exact passed

theorem of_string {rest : List Char} (found : s.rest = '"' :: rest)
    (read : s.string rest = (.ok token, s')) :
    token.Valid ∧ Passed s s' token.source ∧ token.kind = .string := by
  unfold string at read
  dsimp only at read
  split at read
  · next more cut =>
    split at read
    · cases read
    · next small =>
      cases read
      have whole := List.takeWhile_append_dropWhile (p := fun c => c != '"' && c != '\n') (l := rest)
      rw [cut] at whole
      have stopped {c : Char} (inside : c ∈ rest.takeWhile fun c => c != '"' && c != '\n') :
          (c != '"' && c != '\n') = true := List.all_eq_true.mp List.all_takeWhile c inside
      refine ⟨⟨?_, ?_, ?_⟩, ?_, rfl⟩
      · rw [String.toList_ofList]
        exact fun quote => absurd (stopped quote) (by decide)
      · rw [String.toList_ofList]
        exact fun feed => absurd (stopped feed) (by decide)
      · rw [String.utf8ByteSize_ofList, ← byteLength_eq]
        exact Nat.le_of_not_lt small
      · rw [Token.source, String.toList_ofList]
        refine .skip ?_
        rw [found]
        simp [whole]
  · cases read

/-- A token is read from what stands at the front. -/
theorem of_token {c : Char} {rest : List Char} (found : s.rest = c :: rest) (solid : Solid s.rest)
    (read : s.token c rest = (.ok token, s')) :
    token.Valid ∧ Passed s s' token.source ∧ token.Ends s'.rest := by
  unfold Scanner.token at read
  split at read
  · next sign known =>
    cases read
    have face := List.find?_some known
    have char : sign.char = c := eq_of_beq face
    have text : (Token.fixed (.sign sign)).source = [c] := by
      simp [Token.source, Token.fixed, TokenKind.text, char, Char.toString]
    refine ⟨rfl, by rw [text]; exact .skip found, ?_⟩
    by_cases slash : sign = .slash
    · subst slash
      rw [found] at solid
      exact solid.2 char.symm
    · cases sign <;> trivial
  · split at read
    · exact of_number read
    · split at read
      · next quote =>
        subst quote
        obtain ⟨valid, passed, string⟩ := of_string found read
        refine ⟨valid, passed, ?_⟩
        rw [Token.Ends, string]
        trivial
      · split at read
        · next start => exact of_word found start read
        · cases read

/-- Tokens that stand in `text` one after another, with trivia between them. Their spans are counted
from what stands before. -/
inductive Tiles : List Char → List Char → List (Located Token) → Prop where
  | ended {before gap : List Char} (trivia : Trivia [] gap) : Tiles before gap []
  | token {before gap rest : List Char} {token : Located Token} {tokens : List (Located Token)}
      (trivia : Trivia (token.value.source ++ rest) gap) (valid : token.value.Valid)
      (ends : token.value.Ends rest)
      (span : token.span = Span.after (before ++ gap) token.value.source)
      (later : Tiles (before ++ gap ++ token.value.source) rest tokens) :
      Tiles before (gap ++ (token.value.source ++ rest)) (token :: tokens)

/-- What comes next is a token after trivia, or the end of the input. -/
theorem of_next {token : Located Token} {before : List Char}
    (at_ : s.position = Position.start.advanceAll before) (read : s.next = (.ok token, s')) :
    ∃ gap, (token = ⟨.endOfInput, .single (Position.start.advanceAll (before ++ gap))⟩ ∧
        s.rest = gap ∧ Trivia [] gap) ∨
      token.value.Valid ∧ s.rest = gap ++ (token.value.source ++ s'.rest) ∧
        Trivia (token.value.source ++ s'.rest) gap ∧ token.value.Ends s'.rest ∧
          token.span = Span.after (before ++ gap) token.value.source ∧
            s'.position = Position.start.advanceAll (before ++ gap ++ token.value.source) := by
  unfold next at read
  split at read
  · cases read
  · next s₁ skipped =>
    obtain ⟨gap, trivia, passed, solid⟩ := of_skipTrivia skipped
    have there : s₁.position = Position.start.advanceAll (before ++ gap) := by
      rw [passed.position, at_, Position.advanceAll_append]
    refine ⟨gap, ?_⟩
    split at read
    · next empty =>
      cases read
      rw [empty] at trivia
      have whole := passed.rest
      rw [empty, List.append_nil] at whole
      exact .inl ⟨by rw [there], whole, trivia⟩
    · next c rest found =>
      split at read
      · cases read
      · split at read
        · cases read
        · next token₁ s₂ scanned =>
          cases read
          obtain ⟨valid, taken, ends⟩ := of_token found solid scanned
          have position : s₂.position =
              Position.start.advanceAll (before ++ gap ++ token₁.source) := by
            rw [taken.position, there, ← Position.advanceAll_append]
          rw [taken.rest] at trivia
          refine .inr ⟨valid, ?_, trivia, ends, ?_, position⟩
          · rw [passed.rest, taken.rest]
          · rw [Span.after, ← there, ← position]

/-- The tokens that are drained from a scanner tile what it stands before. -/
theorem of_drain {tokens : Array (Located Token)} {last : Located Token} {before : List Char}
    (at_ : s.position = Position.start.advanceAll before)
    (ended : (s.drain tokens).ending = .ok last) :
    last = ⟨.endOfInput, .single (Position.start.advanceAll (before ++ s.rest))⟩ ∧
      ∃ more, (s.drain tokens).tokens.toList = tokens.toList ++ more ∧ Tiles before s.rest more := by
  fun_induction drain s tokens generalizing before with
  | case1 s tokens e s' read => cases ended
  | case2 s tokens token s' read more =>
    cases ended
    obtain ⟨gap, ⟨end_, rest, trivia⟩ | ⟨valid, _⟩⟩ := of_next at_ read
    · exact ⟨rest ▸ end_, [], (List.append_nil _).symm, rest ▸ .ended trivia⟩
    · exact absurd valid.inside (by simp [more])
  | case3 s tokens token s' read more _ ih =>
    obtain ⟨gap, ⟨rfl, _⟩ | ⟨valid, rest, trivia, ends, span, there⟩⟩ := of_next at_ read
    · exact absurd rfl more
    · obtain ⟨last, others, drained, tiles⟩ := ih there ended
      rw [rest]
      refine ⟨?_, token :: others, ?_, .token trivia valid ends span tiles⟩
      · rw [last, List.append_assoc, List.append_assoc]
      · rw [drained, Array.toList_push, List.append_assoc]
        rfl

namespace Tiles

variable {before text : List Char} {tokens : List (Located Token)}

/-- Each token stands where its span says. -/
theorem stands (tiles : Tiles before text tokens) : ∀ token ∈ tokens, token.value.Valid ∧
    ∃ front back, before ++ text = front ++ token.value.source ++ back ∧
      token.span = Span.after front token.value.source := by
  induction tiles with
  | ended => exact nofun
  | @token before gap rest token tokens _ valid _ span _ ih =>
    rw [List.forall_mem_cons]
    constructor
    · refine ⟨valid, before ++ gap, rest, ?_, span⟩
      simp only [List.append_assoc]
    · simpa only [List.append_assoc] using ih

/-- Tokens take some room, after what stands before them. -/
theorem starts (tiles : Tiles before text tokens) : ∀ token ∈ tokens,
    String.utf8Len before ≤ token.span.start.offset ∧
      token.span.start.offset < token.span.stop.offset := by
  induction tiles with
  | ended => exact nofun
  | @token before gap rest token tokens _ valid _ span _ ih =>
    have more := Nat.pos_of_ne_zero (mt String.utf8Len_eq_zero.mp valid.source_ne_nil)
    rw [List.forall_mem_cons]
    constructor
    · rw [span, Span.start_after, Span.stop_after]
      simp only [String.utf8Len_append]
      omega
    · intro other member
      obtain ⟨later, wide⟩ := ih other member
      simp only [String.utf8Len_append] at later
      exact ⟨by omega, wide⟩

/-- Each token ends where the next one may begin. -/
theorem pairwise (tiles : Tiles before text tokens) :
    tokens.Pairwise fun first second => first.span.stop.offset ≤ second.span.start.offset := by
  induction tiles with
  | ended => exact .nil
  | @token before gap rest token tokens _ _ _ span later ih =>
    refine List.pairwise_cons.mpr ⟨fun other member => ?_, ih⟩
    rw [span, Span.stop_after]
    exact (later.starts other member).1

end Tiles

end Scanner

/-- The tokens of a text that can be read tile it: each stands where its span says and slices the text
to what it was read from, they follow one another, and only trivia stands between them. -/
theorem tokenize_tiles {preferences : ScanPreferences} {text : List Char} {stream : TokenStream}
    (read : (tokenize preferences text).result = .ok stream) : ∃ tokens,
      stream.tokens.toList =
        tokens ++ [⟨.endOfInput, .single (Position.start.advanceAll text)⟩] ∧
      Scanner.Tiles [] text tokens ∧
      (∀ token ∈ tokens,
        (∃ front back, text = front ++ token.value.source ++ back ∧
          token.span = Span.after front token.value.source) ∧
        token.span.slice (.ofList text) = .ofList token.value.source ∧
        token.span.start.offset < token.span.stop.offset ∧
        (Token.isWord token.value.source = true →
          (token.value.kind = .identifier ↔ Keyword.ofText? token.value.literal = none))) ∧
      tokens.Pairwise fun first second => first.span.stop.offset ≤ second.span.start.offset := by
  unfold tokenize at read
  dsimp only at read
  split at read
  · cases read
  · next last ended =>
    have first : (Scanner.ofText text).position = Position.start.advanceAll [] := rfl
    obtain ⟨rfl, tokens, drained, tiles⟩ := Scanner.of_drain first ended
    have closed : stream.tokens = ((Scanner.ofText text).drain #[]).tokens.push
        ⟨.endOfInput, .single (Position.start.advanceAll text)⟩ := by
      cases read
      rw [TokenStream.ofTokens, Array.back?_push]
      rfl
    refine ⟨tokens, ?_, tiles, fun token member => ?_, tiles.pairwise⟩
    · rw [closed, Array.toList_push, drained]
      rfl
    · obtain ⟨valid, front, back, whole, span⟩ := tiles.stands token member
      refine ⟨⟨front, back, whole, span⟩, ?_, (tiles.starts token member).2, valid.identifier_iff⟩
      rw [span, show text = front ++ token.value.source ++ back from whole]
      exact Span.slice_after _ _ _

/-- The tokens of a text without the end of the input, each as its literal and its first byte. -/
private def literals (text : String) : List (String × Nat) :=
  match (tokenize ⟨true, true⟩ text.toList).result with
  | .ok stream => stream.tokens.toList.dropLast.map fun token =>
      (token.value.literal, token.span.start.offset)
  | .error _ => []

theorem tokenize_tiles_of_comments :
    let text := "/* é \" */let s=\"// ü\"/x1;// end"
    ∃ stream tokens, (tokenize ⟨true, true⟩ text.toList).result = .ok stream ∧
      stream.tokens.toList.dropLast = tokens ∧ Scanner.Tiles [] text.toList tokens ∧
        (tokens.map fun token => (token.value.literal, token.span.start.offset)) =
          [("let", 10), ("s", 14), ("=", 15), ("// ü", 16), ("/", 23), ("x1", 24), (";", 26)] := by
  intro text
  have found : literals text =
      [("let", 10), ("s", 14), ("=", 15), ("// ü", 16), ("/", 23), ("x1", 24), (";", 26)] := by
    decide +kernel
  unfold literals at found
  split at found
  · next stream read =>
    obtain ⟨tokens, closed, tiles, _⟩ := tokenize_tiles read
    rw [closed, List.dropLast_concat] at found
    exact ⟨stream, tokens, read, by rw [closed, List.dropLast_concat], tiles, found⟩
  · cases found

end NandTools
