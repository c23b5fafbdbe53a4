import NandTools.Proofs.Source.Rows
import NandTools.Proofs.Token.Reads

/-! A text with a lexical error is read up to the character, string, number or comment that the error
is about. What comes before does not depend on it, and the error does not depend on what comes later
once its end is in sight. -/
namespace NandTools

open NandTools.Source

namespace LexicalError

/-- What the error is about stands at the front of a text. -/
def Offends (e : LexicalError) (rest : List Char) : Prop :=
  match e with
  | invalidCharacter c _ _ => ∃ after, rest = c :: after ∧ Text.isBlank c = false ∧
      Sign.ofChar? c = none ∧ Scanner.isWordPart c = false ∧ c ≠ '"'
  | unterminatedString _ _ => ∃ contents after, rest = '"' :: (contents ++ after) ∧
      '"' ∉ contents ∧ '\n' ∉ contents ∧ ∀ c ∈ after.head?, c = '\n'
  | invalidNumber text _ _ => ∃ after, rest = text.toList ++ after ∧
      (∃ digit more, text.toList = digit :: more ∧ digit.isDigit = true) ∧
      (∀ c ∈ text.toList, Scanner.isWordPart c = true) ∧
      (∀ c ∈ after.head?, Scanner.isWordPart c = false) ∧
      Text.readNat Limits.integer text.toList = none
  | unterminatedComment _ _ => ∃ body, rest = '/' :: '*' :: body ∧ ¬ ['*', '/'] <:+: body
  | _ => False

/-- What the error is about has ended in this text, so that nothing after it matters. -/
def Settled (e : LexicalError) (rest : List Char) : Prop :=
  match e with
  | invalidCharacter .. => True
  | invalidNumber text _ _ => text.length < rest.length
  | unterminatedString .. => '\n' ∈ rest
  | _ => False

end LexicalError
namespace Scanner

variable {s s' : Scanner} {gap rest : List Char}

/-- What follows the digits of a number and is none of them makes it unreadable. -/
private theorem readNat_of_tail {text : List Char}
    (more : (text.dropWhile Char.isDigit).takeWhile isWordPart ≠ []) : Text.readNat Limits.integer
      (text.takeWhile Char.isDigit ++ (text.dropWhile Char.isDigit).takeWhile isWordPart) = none := by
  obtain ⟨c, tail, first⟩ := List.exists_cons_of_ne_nil more
  have front : c ∈ (text.dropWhile Char.isDigit).head? := by
    have whole := List.takeWhile_append_dropWhile (p := isWordPart) (l := text.dropWhile Char.isDigit)
    rw [← whole, first]
    rfl
  have stop := stops_of_dropWhile Char.isDigit text c front
  refine Option.eq_none_iff_forall_ne_some.mpr fun value read => ?_
  have digit := (Text.isDigit_of_readNat read).2 c (by simp [first])
  rw [stop] at digit
  cases digit

private theorem offends_of_number {e : LexicalError} {c : Char} {more : List Char}
    (found : s.rest = c :: more) (digit : c.isDigit = true) (failed : s.number = (.error e, s')) :
    e.Offends s.rest ∧ e.place? = some (s.position.line, s.position.column) := by
  let digits := s.rest.takeWhile Char.isDigit
  let tail := (s.rest.dropWhile Char.isDigit).takeWhile isWordPart
  let after := (s.rest.dropWhile Char.isDigit).dropWhile isWordPart
  have unread (none : Text.readNat Limits.integer (digits ++ tail) = none) (line column : Nat) :
      (LexicalError.invalidNumber (.ofList (digits ++ tail)) line column).Offends s.rest := by
    rw [LexicalError.Offends, String.toList_ofList]
    refine ⟨after, ?_, ?_, ?_, stops_of_dropWhile isWordPart _, none⟩
    · rw [List.append_assoc, List.takeWhile_append_dropWhile, List.takeWhile_append_dropWhile]
    · have first : s.rest.takeWhile Char.isDigit = c :: more.takeWhile Char.isDigit := by
        rw [found, List.takeWhile_cons_of_pos digit]
      exact ⟨c, _, congrArg (· ++ tail) first, digit⟩
    · intro d member
      rcases List.mem_append.mp member with inside | inside
      · exact isWordPart_of_isDigit (List.all_eq_true.mp List.all_takeWhile d inside)
      · exact List.all_eq_true.mp List.all_takeWhile d inside
  unfold number at failed
  dsimp only at failed
  split at failed
  · next more =>
    cases failed
    exact ⟨unread (readNat_of_tail (by simpa using more)) _ _, rfl⟩
  · next whole =>
    split at failed
    · cases failed
    · next none =>
      cases failed
      have empty : tail = [] := by
        rw [Bool.not_eq_true, Bool.not_eq_false'] at whole
        exact List.isEmpty_iff.mp whole
      exact ⟨unread (by rw [empty, List.append_nil]; exact none) _ _, rfl⟩

private theorem offends_of_string {e : LexicalError} {more : List Char} {line column : Nat}
    (found : s.rest = '"' :: more) (failed : s.string more = (.error e, s'))
    (placed : e.place? = some (line, column)) :
    e.Offends s.rest ∧ e.place? = some (s.position.line, s.position.column) := by
  unfold Scanner.string at failed
  dsimp only at failed
  split at failed
  · split at failed
    · cases failed
      cases placed
    · cases failed
  · next unquoted =>
    cases failed
    have inside {c : Char} (member : c ∈ more.takeWhile fun c => c != '"' && c != '\n') :
        (c != '"' && c != '\n') = true := List.all_eq_true.mp List.all_takeWhile c member
    refine ⟨⟨more.takeWhile fun c => c != '"' && c != '\n',
      more.dropWhile fun c => c != '"' && c != '\n', ?_, ?_, ?_, ?_⟩, rfl⟩
    · rw [found, List.takeWhile_append_dropWhile]
    · exact fun quote => absurd (inside quote) (by decide)
    · exact fun feed => absurd (inside feed) (by decide)
    · intro c first
      have stop := stops_of_dropWhile _ more c first
      have other : c ≠ '"' := by
        rintro rfl
        obtain ⟨rest, cut⟩ := List.head?_eq_some_iff.mp first
        exact unquoted rest cut
      simpa [other] using stop

private theorem offends_of_token {e : LexicalError} {c : Char} {more : List Char}
    {line column : Nat} (found : s.rest = c :: more) (solid : Solid s.rest)
    (failed : s.token c more = (.error e, s')) (placed : e.place? = some (line, column)) :
    e.Offends s.rest ∧ e.place? = some (s.position.line, s.position.column) := by
  unfold Scanner.token at failed
  split at failed
  · cases failed
  · next noSign =>
    split at failed
    · next digit => exact offends_of_number found digit failed
    · next noDigit =>
      split at failed
      · next quote =>
        subst quote
        exact offends_of_string found failed placed
      · next noQuote =>
        split at failed
        · unfold word at failed
          dsimp only at failed
          split at failed
          · cases failed
            cases placed
          · split at failed <;> cases failed
        · next noStart =>
          cases failed
          rw [found] at solid ⊢
          refine ⟨⟨more, rfl, solid.1, noSign, ?_, noQuote⟩, rfl⟩
          simp only [isWordStart, isWordPart, Char.isAlphanum] at noStart ⊢
          simp_all

/-- An error with a place is about what stands there, after a gap that is skipped. -/
private theorem offends_of_next {e : LexicalError} {line column : Nat}
    (failed : s.next = (.error e, s')) (placed : e.place? = some (line, column)) :
    ∃ gap rest, Filler gap ∧ s.rest = gap ++ rest ∧ e.Offends rest ∧
      line = (s.position.advanceAll gap).line ∧ column = (s.position.advanceAll gap).column ∧
        (e.Settled rest → s.tokens < Limits.tokens) := by
  have outcome := skipped s
  unfold next at failed
  split at failed
  · next e' s₁ skipping =>
    cases failed
    rw [skipping] at outcome
    cases outcome with
    | @unended _ s₁ gap body filler passed found unended =>
      cases placed
      refine ⟨gap, s₁.rest, filler, passed.rest, ⟨body, found, unended⟩, ?_, ?_, ?_⟩
      · rw [passed.position]
      · rw [passed.position]
      · exact False.elim
    | tooLong => cases placed
  · next s₁ skipping =>
    rw [skipping] at outcome
    obtain ⟨filler, passed, kept, solid⟩ := outcome
    split at failed
    · cases failed
    · next c more found =>
      split at failed
      · cases failed
        cases placed
      · next room =>
        split at failed
        · next e' s₂ scanned =>
          cases failed
          obtain ⟨offends, place⟩ := offends_of_token found solid scanned placed
          obtain ⟨rfl, rfl⟩ := Prod.mk.inj (Option.some.inj (placed.symm.trans place))
          have fewer : s.tokens < Limits.tokens := kept ▸ Nat.lt_of_not_le room
          refine ⟨_, s₁.rest, filler (by simp [found]), passed.rest, offends, ?_, ?_, fun _ => fewer⟩
          · rw [passed.position]
          · rw [passed.position]
        · cases failed

private theorem number_of_unread {text after : List Char}
    (parts : ∀ c ∈ text, isWordPart c = true) (stop : ∀ c ∈ after.head?, isWordPart c = false)
    (unread : Text.readNat Limits.integer text = none) (found : s.rest = text ++ after) :
    ∃ s', s.number = (.error (.invalidNumber (.ofList text) s.position.line s.position.column), s') := by
  let digits := text.takeWhile Char.isDigit
  let tail := text.dropWhile Char.isDigit
  have whole : digits ++ tail = text := List.takeWhile_append_dropWhile
  have noDigit : ∀ c ∈ (tail ++ after).head?, c.isDigit = false := by
    intro c first
    cases shape : tail with
    | nil =>
      rw [shape] at first
      cases digit : c.isDigit with
      | false => rfl
      | true =>
        have part := stop c first
        rw [isWordPart_of_isDigit digit] at part
        cases part
    | cons d more =>
      have head : c ∈ tail.head? := by rwa [shape] at first ⊢
      exact stops_of_dropWhile Char.isDigit text c head
  have isDigit : ∀ c ∈ digits, c.isDigit = true := List.all_eq_true.mp List.all_takeWhile
  have isPart : ∀ c ∈ tail, isWordPart c = true := fun c member =>
    parts c (whole ▸ List.mem_append_right _ member)
  obtain ⟨taken, left⟩ := takeWhile_of_stop isDigit noDigit
  obtain ⟨rest, gone⟩ := takeWhile_of_stop isPart stop
  have split : s.rest = digits ++ (tail ++ after) := by rw [← List.append_assoc, whole, found]
  rw [number, split, taken, left, rest, gone]
  by_cases empty : tail = []
  · have all : digits = text := by rw [← whole, empty, List.append_nil]
    simp [empty, all, unread]
  · simp [empty, whole]

private theorem string_of_feed {contents after : List Char} (unquoted : '"' ∉ contents)
    (single : '\n' ∉ contents) : ∃ s', s.string (contents ++ '\n' :: after) =
      (.error (.unterminatedString s.position.line s.position.column), s') := by
  have inside : ∀ c ∈ contents, (c != '"' && c != '\n') = true := by
    intro c member
    rw [Bool.and_eq_true, bne_iff_ne, bne_iff_ne]
    exact ⟨fun same => unquoted (same ▸ member), fun same => single (same ▸ member)⟩
  have stop : ∀ c ∈ ('\n' :: after).head?, (c != '"' && c != '\n') = false := by simp
  obtain ⟨taken, left⟩ := takeWhile_of_stop inside stop
  rw [Scanner.string, taken, left]
  exact ⟨_, rfl⟩

private theorem token_of_offends {e : LexicalError} {c : Char} {later more : List Char}
    (offends : e.Offends rest) (settled : e.Settled rest)
    (placed : e.place? = some (s.position.line, s.position.column))
    (found : s.rest = rest ++ later) (first : rest ++ later = c :: more) :
    ∃ s', s.token c more = (.error e, s') := by
  cases e with
  | invalidCharacter face line column =>
    cases placed
    obtain ⟨after, rfl, visible, noSign, noPart, noQuote⟩ := offends
    obtain ⟨rfl, -⟩ := List.cons.inj first
    have noStart : isWordStart face = false := by
      cases start : isWordStart face with
      | false => rfl
      | true => rw [isWordPart_of_isWordStart start] at noPart; cases noPart
    have noDigit : face.isDigit = false := by
      cases digit : face.isDigit with
      | false => rfl
      | true => rw [isWordPart_of_isDigit digit] at noPart; cases noPart
    rw [Scanner.token, noSign]
    simp [noDigit, noQuote, noStart]
  | unterminatedString line column =>
    cases placed
    obtain ⟨contents, after, rfl, unquoted, single, ended⟩ := offends
    obtain ⟨tail, rfl⟩ : ∃ tail, after = '\n' :: tail := by
      cases after with
      | nil => exact absurd (show '\n' ∈ _ from settled) (by simp [single])
      | cons d tail => exact ⟨tail, by rw [ended d rfl]⟩
    obtain ⟨rfl, body⟩ := List.cons.inj first
    have same : more = contents ++ '\n' :: (tail ++ later) := by simp [← body]
    rw [Scanner.token, show Sign.ofChar? '"' = none by decide, same]
    exact string_of_feed unquoted single
  | invalidNumber text line column =>
    cases placed
    obtain ⟨after, rfl, ⟨digit, tail, shape, isDigit⟩, parts, stop, unread⟩ := offends
    have long : text.length < (text.toList ++ after).length := settled
    have nonempty : after ≠ [] := by
      rintro rfl
      rw [List.append_nil, String.length_toList] at long
      exact absurd long (Nat.lt_irrefl _)
    have front : ∀ c ∈ (after ++ later).head?, isWordPart c = false := by
      rw [List.head?_append_of_ne_nil _ nonempty]
      exact stop
    rw [List.append_assoc] at found
    have read := number_of_unread parts front unread found
    rw [String.ofList_toList] at read
    rw [shape] at first
    obtain ⟨rfl, -⟩ := List.cons.inj first
    rw [token_of_isDigit isDigit]
    exact read
  | unterminatedComment => exact settled.elim
  | _ => cases placed

private theorem solid_of_offends {e : LexicalError} (offends : e.Offends rest)
    (settled : e.Settled rest) (later : List Char) : Solid (rest ++ later) ∧ rest ≠ [] := by
  cases e with
  | invalidCharacter c line column =>
    obtain ⟨after, rfl, visible, noSign, -⟩ := offends
    refine ⟨⟨visible, ?_⟩, List.cons_ne_nil _ _⟩
    rintro rfl
    cases noSign
  | unterminatedString line column =>
    obtain ⟨contents, after, rfl, -⟩ := offends
    exact ⟨⟨by decide, fun slash => absurd slash (by decide)⟩, List.cons_ne_nil _ _⟩
  | invalidNumber text line column =>
    obtain ⟨after, rfl, ⟨digit, tail, shape, isDigit⟩, -⟩ := offends
    rw [shape]
    refine ⟨⟨Text.isBlank_of_isAlphanum (by simp [Char.isAlphanum, isDigit]), ?_⟩,
      List.cons_ne_nil _ _⟩
    rintro rfl
    cases isDigit
  | _ => exact settled.elim

/-- The same error is met before another text that settles it. -/
private theorem next_of_offends {e : LexicalError} {later : List Char} (filler : Filler gap)
    (offends : e.Offends rest) (settled : e.Settled rest)
    (placed : e.place? =
      some ((s.position.advanceAll gap).line, (s.position.advanceAll gap).column))
    (found : s.rest = gap ++ (rest ++ later)) (room : s.tokens < Limits.tokens) :
    ∃ s', s.next = (.error e, s') := by
  obtain ⟨solid, nonempty⟩ := solid_of_offends offends settled later
  obtain ⟨s₁, read, passed, left, kept⟩ := skipTrivia_passes filler found solid
  rw [← passed.position] at placed
  cases first : rest ++ later with
  | nil => exact absurd (List.append_eq_nil_iff.mp first).1 nonempty
  | cons c more =>
    obtain ⟨s', failed⟩ := token_of_offends offends settled placed left first
    rw [first] at left
    rw [← kept] at room
    refine ⟨s', ?_⟩
    rw [next, read]
    simp only [left, failed, ge_iff_le, if_neg (Nat.not_le_of_lt room)]

end Scanner

variable {preferences : ScanPreferences}

private theorem tokenize_error_iff {text : List Char} {e : LexicalError} :
    (tokenize preferences text).result = .error e ↔
      ((Scanner.ofText text).drain #[]).ending = .error e := by
  unfold tokenize
  dsimp only
  split
  · next found => simp [found]
  · next found => simp [found]

/-- What is drawn before an error, and the error, make up all that is told about a text. -/
private theorem tokenize_congr {text other : List Char} {e : LexicalError}
    (failed : ((Scanner.ofText text).drain #[]).ending = .error e)
    (again : ((Scanner.ofText other).drain #[]).ending = .error e)
    (same : ((Scanner.ofText other).drain #[]).tokens = ((Scanner.ofText text).drain #[]).tokens) :
    tokenize preferences other = tokenize preferences text := by
  unfold tokenize
  simp only [failed, again, same]

/-- A text that ends in a gap behind the tokens drawn from it is read. -/
private theorem tokenize_of_reads {text gap : List Char} {tokens : List (Located Token)}
    {s : Scanner} (reads : Scanner.Reads (.ofText text) tokens s) (filler : Scanner.Filler gap)
    (left : s.rest = gap) : ∃ stream, (tokenize preferences text).result = .ok stream ∧
      stream.tokens.toList =
        tokens ++ [⟨.endOfInput, .single (Position.start.advanceAll text)⟩] := by
  obtain ⟨span, s', ended⟩ := Scanner.next_of_end filler left
  have drained := reads.drain_of_end ended rfl
  obtain ⟨stream, read, stored⟩ : ∃ stream, (tokenize preferences text).result = .ok stream ∧
      stream.tokens.toList = tokens ++ [⟨.endOfInput, span⟩] := by
    unfold tokenize
    simp only [drained]
    refine ⟨_, rfl, ?_⟩
    rw [TokenStream.ofTokens, Array.back?_push]
    have closed : Token.endOfInput.isEnd = true := rfl
    simp [closed]
  obtain ⟨tiles, closing, -⟩ := tokenize_tiles read
  have last := List.append_inj_right' (stored.symm.trans closing) rfl
  exact ⟨stream, read, last ▸ stored⟩

/-- An error with a place is about what stands there. The text before it is read into the tokens that
were drawn before the error; with anything after what it is about, once that has ended, the text is
told about as before. -/
theorem tokenize_fault {text : List Char} {e : LexicalError} {line column : Nat}
    (failed : (tokenize preferences text).result = .error e)
    (placed : e.place? = some (line, column)) : ∃ before rest stream,
      text = before ++ rest ∧ e.Offends rest ∧
      line = before.count '\n' + 1 ∧ column = (Text.lastRow before).length + 1 ∧
      (tokenize preferences before).result = .ok stream ∧
      stream.tokens.toList = ((Scanner.ofText text).drain #[]).tokens.toList ++
        [⟨.endOfInput, .single (Position.start.advanceAll before)⟩] ∧
      (e.Settled rest → ∀ later,
        (tokenize preferences (text ++ later)).result = .error e ∧
        tokenize preferences (text ++ later) = tokenize preferences text) := by
  have ending := tokenize_error_iff.mp failed
  obtain ⟨tokens, s', s'', reads, failing⟩ := Scanner.reads_of_failed ending
  obtain ⟨used, passed, again⟩ := reads.elsewhere
  obtain ⟨gap, rest, filler, left, offends, rfl, rfl, room⟩ :=
    Scanner.offends_of_next failing placed
  have drained := reads.drain_of_error failing
  have whole : text = used ++ gap ++ rest := by
    rw [List.append_assoc, ← left]
    exact passed.rest
  have place : s'.position.advanceAll gap = Position.start.advanceAll (used ++ gap) := by
    rw [passed.position, Position.advanceAll_append]
    rfl
  obtain ⟨line, column⟩ := Position.place_advanceAll (used ++ gap)
  have level (other : List Char) : Scanner.Level (.ofText text) (.ofText other) := ⟨rfl, rfl⟩
  -- Before what the error is about, the same tokens are drawn, and then the text ends.
  have front : ∀ c ∈ gap.head?, c ∈ s'.rest.head? := by
    rw [left]
    cases gap with
    | nil => exact nofun
    | cons c gap => exact fun d first => first
  obtain ⟨t, cutReads, cutLeft, -⟩ := again (.ofText (used ++ gap)) gap (level _) rfl front
  obtain ⟨stream, read, stored⟩ := tokenize_of_reads cutReads filler cutLeft
  refine ⟨used ++ gap, rest, stream, whole, offends, ?_, ?_, read, ?_, fun settled later => ?_⟩
  · rw [place, line]
  · rw [place, column]
  · rw [stored, drained]
  · have head : ∀ c ∈ (gap ++ (rest ++ later)).head?, c ∈ s'.rest.head? := by
      have nonempty : gap ++ rest ≠ [] := fun empty =>
        (Scanner.solid_of_offends offends settled later).2 (List.append_eq_nil_iff.mp empty).2
      rw [left, ← List.append_assoc, List.head?_append_of_ne_nil _ nonempty]
      exact fun c first => first
    have found : (Scanner.ofText (text ++ later)).rest = used ++ (gap ++ (rest ++ later)) := by
      simp [Scanner.ofText, whole]
    obtain ⟨t, moreReads, moreLeft, same⟩ := again _ _ (level _) found head
    rw [← same.position] at placed
    obtain ⟨t', met⟩ := Scanner.next_of_offends filler offends settled placed moreLeft
      (same.tokens ▸ room settled)
    have more := moreReads.drain_of_error met
    have told : tokenize preferences (text ++ later) = tokenize preferences text :=
      tokenize_congr ending (by rw [more]) (by rw [more, drained])
    exact ⟨told ▸ failed, told⟩

/-- The error of a text that cannot be read, and how many tokens come before it. -/
private def fault? (text : String) : Option (LexicalError × Nat) :=
  match (tokenize ⟨true, true⟩ text.toList).result with
  | .error e => some (e, ((Scanner.ofText text.toList).drain #[]).tokens.size)
  | .ok _ => none

theorem tokenize_fault_of_comment :
    let text := "// é\nx /*\n*/= é"
    let e := LexicalError.invalidCharacter 'é' 3 5
    ∃ before rest stream, text.toList = before ++ rest ∧ e.Offends rest ∧
      (tokenize ⟨true, true⟩ before).result = .ok stream ∧ stream.tokens.size = 3 ∧
        (tokenize ⟨true, true⟩ (text.toList ++ "\"".toList)).result = .error e := by
  intro text e
  have found : fault? text = some (e, 2) := by decide +kernel
  unfold fault? at found
  split at found
  · next e' failed =>
    obtain ⟨rfl, size⟩ := Prod.mk.inj (Option.some.inj found)
    obtain ⟨before, rest, stream, whole, offends, -, -, read, tokens, settles⟩ :=
      tokenize_fault failed rfl
    refine ⟨before, rest, stream, whole, offends, read, ?_, (settles trivial _).1⟩
    rw [← Array.length_toList, tokens, List.length_append, Array.length_toList, size]
    rfl
  · cases found

end NandTools
