import NandTools.Source.Span
import NandTools.Text.Blank
import NandTools.Text.Numeral
import NandTools.Token
import NandTools.Token.Error

/-! A scanner reads one token at a time from the front of a text. White space, line comments and
block comments before a token are skipped; comments are counted. -/
namespace NandTools

open NandTools.Source

structure Scanner where
  rest : List Char
  position : Position
  tokens : Nat
  comments : Nat
  longestComment : Nat
deriving Repr

namespace Scanner

def ofText (text : List Char) : Scanner := ⟨text, .start, 0, 0, 0⟩

/-- Move over `text`, which stands at the front, to what follows it. -/
def skip (s : Scanner) (text rest : List Char) : Scanner :=
  { s with rest, position := s.position.advanceAll text }

def isWordStart (c : Char) : Bool := c.isAlpha || c == '_'

def isWordPart (c : Char) : Bool := c.isAlphanum || c == '_'

def byteLength (text : List Char) : Nat := text.foldl (fun size c => size + c.utf8Size) 0

/-- Cut a text after the first end mark of a block comment. `seen` holds the characters already
passed, last one first. -/
def commentEnd? (seen : List Char) : List Char → Option (List Char × List Char)
  | '*' :: '/' :: rest => some (('/' :: '*' :: seen).reverse, rest)
  | c :: rest => commentEnd? (c :: seen) rest
  | [] => none

theorem commentEnd?_length {seen text comment rest : List Char}
    (found : commentEnd? seen text = some (comment, rest)) : rest.length ≤ text.length := by
  fun_induction commentEnd? seen text with
  | case1 seen tail =>
    obtain ⟨_, rfl⟩ := Prod.mk.inj (Option.some.inj found)
    simp only [List.length_cons]
    omega
  | case2 seen c tail _ ih => exact Nat.le_succ_of_le (ih found)
  | case3 => cases found

/-- Count a comment that has just been passed. -/
def countComment (s : Scanner) (length : Nat) : Except LexicalError Unit × Scanner :=
  if length > Limits.commentBytes then (.error (.commentTooLong length), s)
  else (.ok (), { s with comments := s.comments + 1, longestComment := max s.longestComment length })

theorem rest_countComment (s : Scanner) (length : Nat) : (s.countComment length).2.rest = s.rest := by
  unfold countComment
  split <;> rfl

/-- Pass everything up to the next line feed. -/
def lineComment (s : Scanner) : Except LexicalError Unit × Scanner :=
  let comment := s.rest.takeWhile (· != '\n')
  (s.skip comment (s.rest.dropWhile (· != '\n'))).countComment (byteLength comment)

/-- Pass everything up to the next end mark; without one the rest of the text is lost. -/
def blockComment (s : Scanner) : Except LexicalError Unit × Scanner :=
  match commentEnd? ['*', '/'] (s.rest.drop 2) with
  | some (comment, rest) => (s.skip comment rest).countComment (byteLength comment)
  | none =>
    (.error (.unterminatedComment s.position.line s.position.column), s.skip s.rest [])

theorem rest_lineComment (s : Scanner) :
    s.lineComment.2.rest = s.rest.dropWhile (· != '\n') := rest_countComment _ _

theorem length_blockComment (s : Scanner) : s.blockComment.2.rest.length ≤ s.rest.length - 2 := by
  unfold blockComment
  split
  · next comment rest found =>
    rw [rest_countComment]
    simpa [skip] using commentEnd?_length found
  · exact Nat.zero_le _

theorem length_lineComment {s s' : Scanner} {result : Except LexicalError Unit} {rest : List Char}
    (found : s.rest = '/' :: '/' :: rest) (read : s.lineComment = (result, s')) :
    s'.rest.length < s.rest.length := by
  have same : s'.rest = s.rest.dropWhile (· != '\n') := by rw [← rest_lineComment, read]
  have shorter := (List.dropWhile_suffix (l := rest) (· != '\n')).length_le
  simp only [same, found, List.length_cons, List.dropWhile_cons, bne_iff_ne, ne_eq, Char.reduceEq,
    not_false_eq_true, if_true]
  omega

/-- Skip white space and comments. -/
def skipTrivia (s : Scanner) : Except LexicalError Unit × Scanner :=
  match found : s.rest with
  | '/' :: '/' :: _ =>
    match read : s.lineComment with
    | (.error e, s') => (.error e, s')
    | (.ok (), s') =>
      have := length_lineComment found read
      skipTrivia s'
  | '/' :: '*' :: _ =>
    match read : s.blockComment with
    | (.error e, s') => (.error e, s')
    | (.ok (), s') =>
      have : s'.rest.length < s.rest.length := by
        have shorter := length_blockComment s
        simp only [read, found, List.length_cons] at shorter ⊢
        omega
      skipTrivia s'
  | c :: rest =>
    have : rest.length < s.rest.length := by simp [found]
    if Text.isBlank c then skipTrivia (s.skip [c] rest) else (.ok (), s)
  | [] => (.ok (), s)
termination_by s.rest.length

def number (s : Scanner) : Except LexicalError Token × Scanner :=
  let digits := s.rest.takeWhile Char.isDigit
  let afterDigits := s.rest.dropWhile Char.isDigit
  let tail := afterDigits.takeWhile isWordPart
  let bad := .error (.invalidNumber (.ofList (digits ++ tail)) s.position.line s.position.column)
  if !tail.isEmpty then (bad, s.skip (digits ++ tail) (afterDigits.dropWhile isWordPart))
  else
    let s' := s.skip digits afterDigits
    match Text.readNat Limits.integer digits with
    | some _ => (.ok ⟨.integer, .ofList digits⟩, s')
    | none => (bad, s')

/-- Read a string constant; `body` is what follows the opening quote. -/
def string (s : Scanner) (body : List Char) : Except LexicalError Token × Scanner :=
  let contents := body.takeWhile fun c => c != '"' && c != '\n'
  match body.dropWhile fun c => c != '"' && c != '\n' with
  | '"' :: rest =>
    let s' := s.skip ('"' :: contents ++ ['"']) rest
    let size := byteLength contents
    if size > Limits.stringBytes then (.error (.stringTooLarge size), s')
    else (.ok ⟨.string, .ofList contents⟩, s')
  | rest =>
    (.error (.unterminatedString s.position.line s.position.column), s.skip ('"' :: contents) rest)

def word (s : Scanner) : Except LexicalError Token × Scanner :=
  let letters := s.rest.takeWhile isWordPart
  let s' := s.skip letters (s.rest.dropWhile isWordPart)
  if letters.length > Limits.identifierBytes then (.error (.identifierTooLong letters.length), s')
  else
    let literal := String.ofList letters
    match Keyword.ofText? literal with
    | some keyword => (.ok ⟨.keyword keyword, literal⟩, s')
    | none => (.ok ⟨.identifier, literal⟩, s')

/-- Read the token that begins with `c`, which stands at the front before `rest`. -/
def token (s : Scanner) (c : Char) (rest : List Char) : Except LexicalError Token × Scanner :=
  match Sign.ofChar? c with
  | some sign => (.ok (.fixed (.sign sign)), s.skip [c] rest)
  | none =>
    if c.isDigit then s.number
    else if c = '"' then s.string rest
    else if isWordStart c then s.word
    else (.error (.invalidCharacter c s.position.line s.position.column), s)

/-- The next token, or why there is none. At the end of the text every call yields a token of
kind `endOfInput`. After an error the scanner stands where it met it. -/
def next (s : Scanner) : Except LexicalError (Located Token) × Scanner :=
  match s.skipTrivia with
  | (.error e, s) => (.error e, s)
  | (.ok (), s) =>
    match s.rest with
    | [] => (.ok ⟨.endOfInput, .single s.position⟩, s)
    | c :: rest =>
      if s.tokens ≥ Limits.tokens then (.error (.tooManyTokens s.tokens), s)
      else
        match s.token c rest with
        | (.error e, s') => (.error e, s')
        | (.ok token, s') =>
          (.ok ⟨token, ⟨s.position, s'.position⟩⟩, { s' with tokens := s'.tokens + 1 })

theorem length_skipTrivia (s : Scanner) : s.skipTrivia.2.rest.length ≤ s.rest.length := by
  fun_induction skipTrivia s with
  | case1 s _ found e s' read => exact Nat.le_of_lt (length_lineComment found read)
  | case2 s _ found s' read shorter ih => exact Nat.le_trans ih (Nat.le_of_lt shorter)
  | case3 s _ found e s' read =>
    have shorter := length_blockComment s
    rw [read] at shorter
    exact Nat.le_trans shorter (Nat.sub_le _ _)
  | case4 s _ found s' read shorter ih => exact Nat.le_trans ih (Nat.le_of_lt shorter)
  | case5 s c rest found _ _ shorter blank ih => exact Nat.le_trans ih (Nat.le_of_lt shorter)
  | case6 => exact Nat.le_refl _
  | case7 => exact Nat.le_refl _

private theorem length_dropWhile_le (p : Char → Bool) (text : List Char) :
    (text.dropWhile p).length ≤ text.length := (List.dropWhile_suffix p).length_le

private theorem length_dropWhile_cons_lt (p : Char → Bool) (c : Char) (rest : List Char)
    (holds : p c = true) : ((c :: rest).dropWhile p).length < (c :: rest).length := by
  rw [List.dropWhile_cons_of_pos holds]
  exact Nat.lt_succ_of_le (length_dropWhile_le p rest)

theorem length_number (s : Scanner) : s.number.2.rest.length ≤ (s.rest.dropWhile Char.isDigit).length := by
  unfold number
  dsimp only
  split
  · exact length_dropWhile_le _ _
  · split <;> exact Nat.le_refl _

theorem length_string (s : Scanner) (body : List Char) :
    (s.string body).2.rest.length ≤ body.length := by
  have shorter := length_dropWhile_le (fun c => c != '"' && c != '\n') body
  unfold string
  dsimp only
  split
  · next rest found =>
    rw [found, List.length_cons] at shorter
    split <;> exact Nat.le_of_succ_le shorter
  · exact shorter

theorem rest_word (s : Scanner) : s.word.2.rest = s.rest.dropWhile isWordPart := by
  unfold word
  dsimp only
  split
  · rfl
  · split <;> rfl

/-- A token takes at least one character. -/
theorem length_token {s s' : Scanner} {c : Char} {rest : List Char} {token : Token}
    (found : s.rest = c :: rest) (read : s.token c rest = (.ok token, s')) :
    s'.rest.length < s.rest.length := by
  have at_most : ∀ {outcome : Except LexicalError Token × Scanner},
      outcome = (.ok token, s') → outcome.2.rest.length < s.rest.length →
      s'.rest.length < s.rest.length := by
    intro outcome same shorter
    simpa [same] using shorter
  unfold Scanner.token at read
  split at read
  · exact at_most read (by simp [skip, found])
  · split at read
    · next digit =>
      refine at_most read (Nat.lt_of_le_of_lt (length_number s) ?_)
      rw [found]
      exact length_dropWhile_cons_lt _ c rest digit
    · split at read
      · refine at_most read (Nat.lt_of_le_of_lt (length_string s rest) ?_)
        simp [found]
      · split at read
        · next start =>
          refine at_most read ?_
          rw [rest_word, found]
          refine length_dropWhile_cons_lt _ c rest ?_
          unfold isWordStart at start
          unfold isWordPart Char.isAlphanum
          simp only [Bool.or_eq_true] at start ⊢
          exact start.imp .inl id
        · cases read

theorem length_token_le (s : Scanner) (c : Char) (rest : List Char) (found : s.rest = c :: rest) :
    (s.token c rest).2.rest.length ≤ s.rest.length := by
  unfold Scanner.token
  split
  · simp [skip, found]
  · split
    · exact Nat.le_trans (length_number s) (length_dropWhile_le _ _)
    · split
      · refine Nat.le_trans (length_string s rest) ?_
        simp [found]
      · split
        · rw [rest_word]
          exact length_dropWhile_le _ _
        · exact Nat.le_refl _

theorem length_next (s : Scanner) : s.next.2.rest.length ≤ s.rest.length := by
  have trivia := length_skipTrivia s
  unfold next
  split
  · next same => simpa [same] using trivia
  · next s' same =>
    rw [same] at trivia
    split
    · exact trivia
    · next c rest found =>
      split
      · exact trivia
      · have shorter := length_token_le s' c rest found
        split
        · next same' => rw [same'] at shorter; exact Nat.le_trans shorter trivia
        · next same' => rw [same'] at shorter; exact Nat.le_trans shorter trivia

/-- Every token but the end of the input shortens the text. -/
theorem length_next_lt {s : Scanner} {token : Located Token} (read : s.next.1 = .ok token)
    (more : token.value.isEnd = false) : s.next.2.rest.length < s.rest.length := by
  have trivia := length_skipTrivia s
  revert read
  unfold next
  split
  · intro read; cases read
  · next s' same =>
    rw [same] at trivia
    split
    · intro read
      cases read
      cases more
    · next c rest found =>
      split
      · intro read; cases read
      · split
        · intro read; cases read
        · next same' =>
          intro _
          have shorter := length_token found same'
          exact Nat.lt_of_lt_of_le shorter trivia

end Scanner

end NandTools
