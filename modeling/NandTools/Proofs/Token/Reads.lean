import NandTools.Proofs.Token.Printing

/-! Tokens are drawn across what is skipped before them. The same tokens are drawn from every scanner
that has the same text before it, and one more character in sight. -/
namespace NandTools

open NandTools.Source

namespace Scanner

variable {s s' s'' : Scanner} {gap rest piece : List Char}

/-! ### What is skipped -/

private theorem tokens_countComment (s : Scanner) (length : Nat) :
    (s.countComment length).2.tokens = s.tokens := by
  unfold countComment
  split <;> rfl

private theorem short_of_countComment {length : Nat} (counted : s.countComment length = (.ok (), s')) :
    length ≤ Limits.commentBytes := by
  unfold countComment at counted
  split at counted
  · cases counted
  · next short => exact Nat.le_of_not_lt short

private theorem error_of_countComment {length : Nat} {e : LexicalError}
    (counted : s.countComment length = (.error e, s')) : e = .commentTooLong length := by
  unfold countComment at counted
  split at counted
  · cases counted
    rfl
  · cases counted

/-- A line comment and what is skipped after it. -/
private theorem filler_of_lineComment {more : List Char} (found : s.rest = '/' :: '/' :: more)
    (read : s.lineComment = (.ok (), s')) : ∃ body,
      Passed s s' ('/' :: '/' :: body) ∧ s'.tokens = s.tokens ∧
      ∀ gap tail, s'.rest = gap ++ tail → tail ≠ [] → (∀ c ∈ tail.head?, c ≠ '\n') →
        Filler gap → Filler ('/' :: '/' :: body ++ gap) := by
  obtain ⟨body, single, passed, ended⟩ := of_lineComment found read
  have kept : s'.tokens = s.tokens := by
    have counted : s.lineComment.2.tokens = s.tokens := tokens_countComment _ _
    rwa [read] at counted
  have short : String.utf8Len ('/' :: '/' :: body) ≤ Limits.commentBytes := by
    have rest : s'.rest = s.rest.dropWhile (· != '\n') := by rw [← rest_lineComment, read]
    have whole : s.rest.takeWhile (· != '\n') ++ s'.rest = '/' :: '/' :: body ++ s'.rest := by
      rw [← passed.rest, rest, List.takeWhile_append_dropWhile]
    have counted := short_of_countComment read
    rwa [byteLength_eq, List.append_cancel_right whole] at counted
  refine ⟨body, passed, kept, fun gap tail left nonempty solid filler => ?_⟩
  -- The comment reaches up to a line feed, and the line feed is skipped with what follows it.
  rw [left] at ended
  cases filler with
  | nil =>
    obtain ⟨c, tail, rfl⟩ := List.exists_cons_of_ne_nil nonempty
    exact absurd (ended c rfl) (solid c rfl)
  | @blank c more blank later =>
    obtain rfl : c = '\n' := ended c rfl
    exact .line single short later
  | line => exact absurd (ended '/' rfl) (by decide)
  | block => exact absurd (ended '/' rfl) (by decide)

private theorem filler_of_blockComment {more : List Char} (found : s.rest = '/' :: '*' :: more)
    (read : s.blockComment = (.ok (), s')) : ∃ body,
      Passed s s' ('/' :: '*' :: body ++ ['*', '/']) ∧ s'.tokens = s.tokens ∧
      ∀ gap, Filler gap → Filler ('/' :: '*' :: body ++ ['*', '/'] ++ gap) := by
  unfold blockComment at read
  split at read
  · next comment rest cut =>
    rw [found] at cut
    obtain ⟨body, text, rfl, unended⟩ := of_commentEnd? cut
    have shown : more = body ++ '*' :: '/' :: rest := text
    have short := short_of_countComment read
    rw [byteLength_eq] at short
    have kept := tokens_countComment (s.skip ('/' :: '*' :: body ++ ['*', '/']) rest)
      (byteLength ('/' :: '*' :: body ++ ['*', '/']))
    refine ⟨body, (Passed.skip ?_).countComment read, ?_, fun gap filler => ?_⟩
    · simp [found, shown]
    · have same : s'.tokens = _ := congrArg (·.2.tokens) read.symm
      exact same.trans kept
    · have joined := Filler.block unended short filler
      simpa using joined
  · cases read

private theorem unended_of_commentEnd? {seen text : List Char} (absent : commentEnd? seen text = none) :
    ¬ ['*', '/'] <:+: text := by
  fun_induction commentEnd? seen text with
  | case1 => cases absent
  | case2 seen c tail other ih =>
    intro mark
    rcases List.infix_cons_iff.mp mark with ⟨more, first⟩ | later
    · obtain ⟨rfl, rfl⟩ := List.cons.inj first
      exact other more rfl rfl
    · exact ih absent later
  | case3 => simp

private theorem error_of_blockComment {more : List Char} {e : LexicalError}
    (found : s.rest = '/' :: '*' :: more) (read : s.blockComment = (.error e, s')) :
    (∃ length, e = .commentTooLong length) ∨
      e = .unterminatedComment s.position.line s.position.column ∧ ¬ ['*', '/'] <:+: more := by
  unfold blockComment at read
  split at read
  · exact .inl ⟨_, error_of_countComment read⟩
  · next absent =>
    cases read
    rw [found] at absent
    exact .inr ⟨rfl, unended_of_commentEnd? absent⟩

/-- What skipping comes to: something solid, a comment that does not end, or one that is too long. -/
inductive Skipped (s : Scanner) : Except LexicalError Unit × Scanner → Prop where
  | solid {s' : Scanner} {gap : List Char} (filler : s'.rest ≠ [] → Filler gap)
      (passed : Passed s s' gap) (kept : s'.tokens = s.tokens) (solid : Solid s'.rest) :
      Skipped s (.ok (), s')
  | unended {s' s₁ : Scanner} {gap body : List Char} (filler : Filler gap) (passed : Passed s s₁ gap)
      (found : s₁.rest = '/' :: '*' :: body) (unended : ¬ ['*', '/'] <:+: body) :
      Skipped s (.error (.unterminatedComment s₁.position.line s₁.position.column), s')
  | tooLong {s' : Scanner} {length : Nat} : Skipped s (.error (.commentTooLong length), s')

private theorem Solid.unbroken (solid : Solid rest) : ∀ c ∈ rest.head?, c ≠ '\n' := by
  rintro c first rfl
  obtain ⟨tail, rfl⟩ := List.head?_eq_some_iff.mp first
  exact absurd solid.1 (by decide)

private theorem Skipped.behind {outcome : Except LexicalError Unit × Scanner}
    (later : Skipped s' outcome) (first : Passed s s' piece) (kept : s'.tokens = s.tokens)
    (joins : ∀ gap tail, s'.rest = gap ++ tail → tail ≠ [] → (∀ c ∈ tail.head?, c ≠ '\n') →
      Filler gap → Filler (piece ++ gap)) : Skipped s outcome := by
  cases later with
  | solid filler passed same solid =>
    exact .solid (fun more => joins _ _ passed.rest more solid.unbroken (filler more))
      (first.trans passed) (same.trans kept) solid
  | unended filler passed found unended =>
    have joined := joins _ _ passed.rest (by simp [found]) (by simp [found]) filler
    exact .unended joined (first.trans passed) found unended
  | tooLong => exact .tooLong

theorem skipped (s : Scanner) : Skipped s s.skipTrivia := by
  fun_induction skipTrivia s with
  | case1 s more found e s' read =>
    rw [lineComment] at read
    obtain rfl := error_of_countComment read
    exact .tooLong
  | case2 s more found s₁ line _ ih =>
    obtain ⟨body, passed, kept, joins⟩ := filler_of_lineComment found line
    exact ih.behind passed kept joins
  | case3 s more found e s' read =>
    obtain ⟨length, rfl⟩ | ⟨rfl, unended⟩ := error_of_blockComment found read
    · exact .tooLong
    · exact .unended .nil ⟨rfl, rfl⟩ found unended
  | case4 s more found s₁ block _ ih =>
    obtain ⟨body, passed, kept, joins⟩ := filler_of_blockComment found block
    exact ih.behind passed kept fun gap _ _ _ _ => joins gap
  | case5 s c rest unlined unblocked found _ blank ih =>
    have first : Passed s (s.skip [c] rest) [c] := .skip found
    exact ih.behind first rfl fun gap _ _ _ _ filler => .blank blank filler
  | case6 s c rest unlined unblocked found _ blank =>
    refine .solid (fun _ => .nil) ⟨rfl, rfl⟩ rfl ?_
    rw [found]
    exact solid_of_visible (by simpa using blank) unlined unblocked
  | case7 s found => exact .solid (fun _ => .nil) ⟨rfl, rfl⟩ rfl (by rw [found]; trivial)

theorem skipTrivia_passes (filler : Filler gap) (found : s.rest = gap ++ rest)
    (solid : Solid rest) : ∃ s', s.skipTrivia = (.ok (), s') ∧ Passed s s' gap ∧
      s'.rest = rest ∧ s'.tokens = s.tokens := by
  obtain ⟨s', read, left, kept⟩ := skipTrivia_of_filler filler found solid
  obtain ⟨gap', -, passed, -⟩ := of_skipTrivia read
  have same : gap' ++ rest = gap ++ rest := by rw [← found, passed.rest, left]
  rw [List.append_cancel_right same] at passed
  exact ⟨s', read, passed, left, kept⟩

/-! ### Tokens -/

/-- A token is drawn across a gap. What follows it is seen by its first character only. -/
structure Step (s : Scanner) (token : Located Token) (s' : Scanner) (gap : List Char) :
    Prop where
  filler : Filler gap
  valid : token.value.Valid
  ends : token.value.Ends s'.rest
  rest : s.rest = gap ++ (token.value.source ++ s'.rest)
  span : token.span =
    ⟨s.position.advanceAll gap, s.position.advanceAll (gap ++ token.value.source)⟩
  position : s'.position = s.position.advanceAll (gap ++ token.value.source)
  tokens : s'.tokens = s.tokens + 1
  room : s.tokens < Limits.tokens

variable {token : Located Token}

private theorem tokens_of_token {c : Char} {more : List Char} {value : Token}
    (read : s.token c more = (.ok value, s')) : s'.tokens = s.tokens := by
  unfold Scanner.token number string word at read
  grind [skip]

theorem step_of_next (read : s.next = (.ok token, s')) (inside : token.value.isEnd = false) :
    ∃ gap, Step s token s' gap := by
  unfold next at read
  split at read
  · cases read
  · next s₁ skipping =>
    have outcome := skipped s
    rw [skipping] at outcome
    obtain ⟨filler, passed, kept, solid⟩ := outcome
    split at read
    · cases read
      cases inside
    · next c more found =>
      split at read
      · cases read
      · next room =>
        split at read
        · cases read
        · next value s₂ scanned =>
          cases read
          obtain ⟨valid, taken, ends⟩ := of_token found solid scanned
          have position : s₂.position = s.position.advanceAll (_ ++ value.source) :=
            (passed.trans taken).position
          have fewer : s₁.tokens < Limits.tokens := Nat.lt_of_not_le room
          refine ⟨_, filler (by simp [found]), valid, ends, ?_, ?_, position, ?_, kept ▸ fewer⟩
          · rw [passed.rest, taken.rest]
          · rw [← passed.position, ← position]
          · rw [← kept, ← tokens_of_token scanned]

private theorem ends_of_head {value : Token} {other : List Char} (ends : value.Ends rest)
    (head : ∀ c ∈ other.head?, c ∈ rest.head?) : value.Ends other := by
  obtain ⟨kind, literal⟩ := value
  cases kind with
  | keyword word => exact fun c first => ends c (head c first)
  | sign sign => cases sign <;> first | exact fun c first => ends c (head c first) | trivial
  | integer => exact fun c first => ends c (head c first)
  | string => trivial
  | identifier => exact fun c first => ends c (head c first)
  | endOfInput => trivial

/-- Scanners that draw the same tokens as long as they have the same text before them. -/
structure Level (s t : Scanner) : Prop where
  position : t.position = s.position
  tokens : t.tokens = s.tokens

/-- The same token is drawn before another text, if that begins as this one or is empty. -/
private theorem Step.elsewhere (step : Step s token s' gap) {t : Scanner} (level : Level s t)
    {other : List Char} (found : t.rest = gap ++ (token.value.source ++ other))
    (head : ∀ c ∈ other.head?, c ∈ s'.rest.head?) :
    ∃ t', t.next = (.ok token, t') ∧ t'.rest = other ∧ Level s' t' := by
  have ends := ends_of_head step.ends head
  have room : t.tokens < Limits.tokens := level.tokens ▸ step.room
  obtain ⟨span, t', read, left, -⟩ := next_of_filler step.filler step.valid found ends room
  obtain ⟨gap', there⟩ := step_of_next read step.valid.inside
  have same : gap' ++ (token.value.source ++ t'.rest) = gap ++ (token.value.source ++ t'.rest) := by
    rw [← show t.rest = gap' ++ (token.value.source ++ t'.rest) from there.rest, left, found]
  obtain rfl := List.append_cancel_right same
  have place : span = token.span := by
    rw [step.span, ← level.position]
    exact there.span
  subst place
  refine ⟨t', read, left, ?_, ?_⟩
  · rw [there.position, step.position, level.position]
  · rw [there.tokens, step.tokens, level.tokens]

/-- These tokens are drawn on the way from one state to another. -/
inductive Reads : Scanner → List (Located Token) → Scanner → Prop where
  | done (s : Scanner) : Reads s [] s
  | token {s s' last : Scanner} {token : Located Token} {tokens : List (Located Token)}
      (read : s.next = (.ok token, s')) (inside : token.value.isEnd = false)
      (later : Reads s' tokens last) : Reads s (token :: tokens) last

variable {tokens : List (Located Token)}

theorem Reads.drain (reads : Reads s tokens s') (acc : Array (Located Token)) :
    s.drain acc = s'.drain (acc ++ tokens.toArray) := by
  induction reads generalizing acc with
  | done => simp
  | token read inside _ ih =>
    rw [drain_of_next read inside, ih]
    simp

theorem reads_of_failed {acc : Array (Located Token)} {e : LexicalError}
    (failed : (s.drain acc).ending = .error e) : ∃ tokens s' s'',
      Reads s tokens s' ∧ s'.next = (.error e, s'') := by
  fun_induction drain s acc with
  | case1 s acc e' s' read =>
    cases failed
    exact ⟨[], s, s', .done s, read⟩
  | case2 => cases failed
  | case3 s acc token s₁ read more _ ih =>
    obtain ⟨tokens, s', s'', reads, failing⟩ := ih failed
    exact ⟨token :: tokens, s', s'', .token read (by simpa using more) reads, failing⟩

private theorem drain_of_error {acc : Array (Located Token)} {e : LexicalError}
    (read : s.next = (.error e, s')) : s.drain acc = ⟨acc, .error e, s'⟩ := by
  rw [Scanner.drain]
  split
  · next same =>
    cases read.symm.trans same
    rfl
  · next same => cases read.symm.trans same

theorem Reads.drain_of_error {e : LexicalError} {last : Scanner} (reads : Reads s tokens s')
    (failing : s'.next = (.error e, last)) : s.drain #[] = ⟨tokens.toArray, .error e, last⟩ := by
  rw [reads.drain, Scanner.drain_of_error failing, Array.empty_append]

theorem Reads.drain_of_end {drawn : Located Token} {last : Scanner} (reads : Reads s tokens s')
    (read : s'.next = (.ok drawn, last)) (ended : drawn.value.isEnd = true) :
    s.drain #[] = ⟨tokens.toArray, .ok drawn, last⟩ := by
  rw [reads.drain, Scanner.drain_of_end read ended, Array.empty_append]

/-- What is drawn depends on what it is drawn from, and on the first character after that. -/
theorem Reads.elsewhere (reads : Reads s tokens s') : ∃ used, Passed s s' used ∧
    ∀ t other, Level s t → t.rest = used ++ other → (∀ c ∈ other.head?, c ∈ s'.rest.head?) →
      ∃ t', Reads t tokens t' ∧ t'.rest = other ∧ Level s' t' := by
  induction reads with
  | done s => exact ⟨[], ⟨rfl, rfl⟩, fun t other level found _ => ⟨t, .done t, found, level⟩⟩
  | @token s s₁ s' token tokens read inside later ih =>
    obtain ⟨used, passed, again⟩ := ih
    obtain ⟨gap, step⟩ := step_of_next read inside
    have first : Passed s s₁ (gap ++ token.value.source) :=
      ⟨by rw [step.rest, List.append_assoc], step.position⟩
    refine ⟨_, first.trans passed, fun t other level found head => ?_⟩
    have front : ∀ c ∈ (used ++ other).head?, c ∈ s₁.rest.head? := by
      rw [passed.rest]
      cases used with
      | nil => exact head
      | cons c used => exact fun d first => first
    rw [List.append_assoc, List.append_assoc] at found
    obtain ⟨t₁, drawn, left, level₁⟩ := step.elsewhere level found front
    obtain ⟨t', reads', rest', level'⟩ := again t₁ other level₁ left head
    exact ⟨t', .token drawn inside reads', rest', level'⟩

end Scanner

end NandTools
