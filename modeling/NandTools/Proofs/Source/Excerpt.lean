import NandTools.Proofs.Source.Rows
import NandTools.Source.Excerpt
import NandTools.Text.Blank
import Mathlib.Data.List.DropRight

/-! Under an error stands the line that it is about, and carets under the part of it that its span
covers. -/
namespace NandTools.Source

/-- How many characters of a line begin at the byte `start` or later, and before the byte `stop`. The
line itself begins at the byte `place`. -/
def charactersBetween (start stop place : Nat) : List Char → Nat
  | [] => 0
  | c :: rest => (if start ≤ place ∧ place < stop then 1 else 0) +
      charactersBetween start stop (place + c.utf8Size) rest

section charactersBetween

variable {start stop place : Nat} {line : List Char}

theorem charactersBetween_append (front back : List Char) :
    charactersBetween start stop place (front ++ back) =
      charactersBetween start stop place front +
        charactersBetween start stop (place + String.utf8Len front) back := by
  induction front generalizing place with
  | nil => simp [charactersBetween]
  | cons c front ih =>
    rw [List.cons_append, charactersBetween, charactersBetween, ih, String.utf8Len_cons]
    rw [show place + c.utf8Size + String.utf8Len front =
      place + (String.utf8Len front + c.utf8Size) by omega, Nat.add_assoc]

theorem charactersBetween_inside (first : start ≤ place)
    (last : place + String.utf8Len line ≤ stop) :
    charactersBetween start stop place line = line.length := by
  induction line generalizing place with
  | nil => rfl
  | cons c line ih =>
    have wide := c.utf8Size_pos
    rw [String.utf8Len_cons] at last
    rw [charactersBetween, ih (by omega) (by omega), if_pos (by omega), List.length_cons,
      Nat.add_comm]

theorem charactersBetween_before (later : place + String.utf8Len line ≤ start) :
    charactersBetween start stop place line = 0 := by
  induction line generalizing place with
  | nil => rfl
  | cons c line ih =>
    have wide := c.utf8Size_pos
    rw [String.utf8Len_cons] at later
    rw [charactersBetween, ih (by omega), if_neg (by omega)]

theorem charactersBetween_behind (earlier : stop ≤ place) :
    charactersBetween start stop place line = 0 := by
  induction line generalizing place with
  | nil => rfl
  | cons c line ih => rw [charactersBetween, ih (by omega), if_neg (by omega)]

end charactersBetween

/-- The text under an error: its place, a line of the source, and carets under that line. -/
def excerpt (start : Position) (message : String) (line : List Char) (indent carets : Nat) : String :=
  let place := start.display
  let number := toString start.line
  let margin := "".pushn ' ' number.length
  let quoted := String.ofList line
  let blank := "".pushn ' ' indent
  let marks := "".pushn '^' carets
  s!"Error: {message}\n  --> {place}\n" ++
    s!"   {margin} |\n   {number} | {quoted}\n" ++ s!"   {margin} | {blank}{marks}\n"

private theorem describe_of_line {index : LineIndex} {span : Span} {line : List Char}
    (found : index.line? span.start.line = some line) (message : String) :
    index.describe span message = excerpt span.start message line (span.start.column - 1)
      (LineIndex.caretCount span line) := by
  rw [LineIndex.describe, found]
  rfl

/-- What a span of the text may be: characters that begin and end with a visible one, or the place
behind the text. -/
inductive Span.Marks (text : List Char) : Span → Prop where
  | word {front word back : List Char} (whole : text = front ++ word ++ back) (nonempty : word ≠ [])
      (first : ∀ c ∈ word.head?, Text.isBlank c = false)
      (last : ∀ c ∈ word.getLast?, Text.isBlank c = false) : Marks text (.after front word)
  | ended : Marks text (.single (Position.start.advanceAll text))

/-- The row of a text that a span begins in, between `before` and `after`, and the row without the
carriage returns at its end. -/
structure Row (text : List Char) (span : Span) (before row after quoted : List Char) : Prop where
  whole : text = before ++ row ++ after
  begins : before = [] ∨ ∃ front, before = front ++ ['\n']
  single : '\n' ∉ row
  ends : ∀ c ∈ after.head?, c = '\n'
  holds : String.utf8Len before ≤ span.start.offset ∧
    span.start.offset ≤ String.utf8Len (before ++ row)
  returns : ∃ count, row = quoted ++ List.replicate count '\r'
  trimmed : quoted.getLast? ≠ some '\r'

/-- The row less the carriage returns at its end. -/
private def trimReturns (row : List Char) : List Char := row.rdropWhile (· == '\r')

private theorem trimReturns_returns (row : List Char) :
    ∃ count, row = trimReturns row ++ List.replicate count '\r' := by
  have same : row.rtakeWhile (· == '\r') =
      List.replicate (row.rtakeWhile (· == '\r')).length '\r' :=
    List.eq_replicate_iff.mpr ⟨rfl, fun c member =>
      eq_of_beq (List.mem_rtakeWhile_imp (p := (· == '\r')) member)⟩
  refine ⟨(row.rtakeWhile (· == '\r')).length, ?_⟩
  rw [trimReturns, ← same, List.rdropWhile_append_rtakeWhile]

private theorem trimReturns_trimmed (row : List Char) : (trimReturns row).getLast? ≠ some '\r' := by
  intro last
  rw [trimReturns, List.rdropWhile, List.getLast?_reverse] at last
  have stop := List.head?_dropWhile_not (· == '\r') row.reverse
  rw [last] at stop
  exact absurd stop (by decide)

/-- What does not end in a carriage return is not cut. -/
private theorem isPrefix_trimReturns {front row : List Char} (front_row : front <+: row)
    (plain : front.getLast? ≠ some '\r') : front <+: trimReturns row := by
  obtain ⟨count, whole⟩ := trimReturns_returns row
  rw [whole] at front_row
  rcases List.prefix_or_prefix_of_prefix front_row (List.prefix_append _ _) with shorter | ⟨more, rfl⟩
  · exact shorter
  · obtain rfl : more = [] := by
      rw [List.prefix_append_right_inj] at front_row
      cases shape : more.getLast? with
      | none => exact List.getLast?_eq_none_iff.mp shape
      | some c =>
        have among : c ∈ List.replicate count '\r' :=
          front_row.subset (List.mem_of_getLast? shape)
        rw [List.getLast?_append, shape, List.eq_of_mem_replicate among] at plain
        exact absurd rfl plain
    exact (List.append_nil _).symm ▸ List.prefix_refl _

private theorem line_of_row {before row after : List Char} (closed : Text.Closed before)
    (single : '\n' ∉ row) (ends : ∀ c ∈ after.head?, c = '\n') :
    (LineIndex.ofText (before ++ row ++ after)).line? (before.count '\n' + 1) =
      some (trimReturns row) := by
  rw [LineIndex.line?, if_neg (Nat.succ_ne_zero _), Nat.add_sub_cancel, LineIndex.ofText,
    List.getElem?_toArray, Text.rows_of_row closed single ends]
  rfl

/-- The row in which a place of the text is, and where in the row it is. -/
private theorem exists_row (front rest : List Char) : ∃ before after quoted,
    (∀ span : Span, span.start = Position.start.advanceAll front →
      Row (front ++ rest) span before (Text.lastRow front ++ rest.takeWhile (· != '\n')) after quoted ∧
      (LineIndex.ofText (front ++ rest)).line? span.start.line = some quoted) ∧
    front = before ++ Text.lastRow front ∧
    quoted = trimReturns (Text.lastRow front ++ rest.takeWhile (· != '\n')) := by
  obtain ⟨before, split, closed⟩ := Text.exists_lastRow front
  have single : '\n' ∉ Text.lastRow front ++ rest.takeWhile (· != '\n') := by
    rw [List.mem_append, not_or]
    refine ⟨Text.not_mem_lastRow front, fun feed => ?_⟩
    exact absurd (List.all_eq_true.mp List.all_takeWhile _ feed) (by decide)
  have ends : ∀ c ∈ (rest.dropWhile (· != '\n')).head?, c = '\n' := by
    intro c first
    have stop := List.head?_dropWhile_not (· != '\n') rest
    rw [Option.mem_def.mp first] at stop
    exact bne_eq_false_iff_eq.mp stop
  have whole : front ++ rest = before ++ (Text.lastRow front ++ rest.takeWhile (· != '\n')) ++
      rest.dropWhile (· != '\n') := by
    rw [List.append_assoc, List.append_assoc, List.takeWhile_append_dropWhile, ← List.append_assoc,
      ← split]
  refine ⟨before, rest.dropWhile (· != '\n'), _, fun span starts => ⟨⟨whole, closed, single, ends,
    ?_, trimReturns_returns _, trimReturns_trimmed _⟩, ?_⟩, split, rfl⟩
  · have offset : span.start.offset = String.utf8Len (before ++ Text.lastRow front) := by
      rw [starts, Position.offset_advanceAll, ← split]
      exact Nat.zero_add _
    rw [offset]
    simp only [String.utf8Len_append]
    omega
  · have feeds : front.count '\n' = before.count '\n' := by
      conv => lhs; rw [split, List.count_append, List.count_eq_zero.mpr (Text.not_mem_lastRow front)]
      rfl
    rw [starts, (Position.place_advanceAll front).1, feeds, whole, line_of_row closed single ends]

/-- What an error shows of the row that its span begins in: the row itself, without the carriage
returns at its end; carets that are indented by the characters of the row before the span; as many of
them as the span covers characters of what is shown, and at least one. -/
structure Shown (text : List Char) (span : Span) (before row quoted : List Char) : Prop where
  column : 0 < span.start.column
  described : ∀ message, (LineIndex.ofText text).describe span message =
    excerpt span.start message quoted
      (charactersBetween 0 span.start.offset (String.utf8Len before) row)
      (max 1 (charactersBetween span.start.offset span.stop.offset (String.utf8Len before) quoted))
  indented : span.start.offset < String.utf8Len text →
    charactersBetween 0 span.start.offset (String.utf8Len before) row =
      charactersBetween 0 span.start.offset (String.utf8Len before) quoted

/-- The characters before a place are those of its row that were read on the way. -/
private theorem charactersBetween_lastRow {before front rest : List Char}
    (split : front = before ++ Text.lastRow front) :
    charactersBetween 0 (String.utf8Len front) (String.utf8Len before) (Text.lastRow front ++ rest) =
      (Text.lastRow front).length := by
  have size := congrArg String.utf8Len split
  rw [String.utf8Len_append] at size
  rw [charactersBetween_append, charactersBetween_inside (Nat.zero_le _) (Nat.le_of_eq size.symm),
    charactersBetween_behind (Nat.le_of_eq size), Nat.add_zero]

private theorem offset_start (front : List Char) :
    (Position.start.advanceAll front).offset = String.utf8Len front := by
  rw [Position.offset_advanceAll]
  exact Nat.zero_add _

/-- What a row goes on with is shown, if it ends in a visible character. -/
private theorem isPrefix_shown (front more : List Char) {part : List Char} (single : '\n' ∉ part)
    (nonempty : part ≠ []) (last : ∀ c ∈ part.getLast?, Text.isBlank c = false) :
    Text.lastRow front ++ part <+:
      trimReturns (Text.lastRow front ++ (part ++ more).takeWhile (· != '\n')) := by
  have goes : ∀ c ∈ part, (c != '\n') = true := fun c member =>
    bne_iff_ne.mpr fun feed => single (feed ▸ member)
  rw [List.takeWhile_append_of_pos goes, ← List.append_assoc]
  refine isPrefix_trimReturns (List.prefix_append _ _) fun ended => ?_
  rw [List.getLast?_append_of_ne_nil _ nonempty] at ended
  cases last '\r' ended

private theorem isPrefix_first (front more : List Char) {first : Char}
    (visible : Text.isBlank first = false) : Text.lastRow front ++ [first] <+:
      trimReturns (Text.lastRow front ++ (first :: more).takeWhile (· != '\n')) := by
  refine isPrefix_shown front more ?_ (List.cons_ne_nil _ _) ?_
  · rw [List.mem_singleton]
    rintro rfl
    cases visible
  · rintro c ⟨⟩
    exact visible

/-- The carets under a line: one for each of its characters that the span covers. -/
private theorem caretCount_after {front word more before quoted : List Char} {first : Char}
    (visible : Text.isBlank first = false)
    (last : ∀ c ∈ (first :: word).getLast?, Text.isBlank c = false)
    (split : front = before ++ Text.lastRow front)
    (trimmed : quoted =
      trimReturns (Text.lastRow front ++ (first :: word ++ more).takeWhile (· != '\n'))) :
    LineIndex.caretCount (.after front (first :: word)) quoted =
      max 1 (charactersBetween (String.utf8Len front) (String.utf8Len (front ++ first :: word))
        (String.utf8Len before) quoted) := by
  have size := congrArg String.utf8Len split
  rw [String.utf8Len_append] at size
  obtain ⟨startLine, startColumn⟩ := Position.place_advanceAll front
  obtain ⟨stopLine, stopColumn⟩ := Position.place_advanceAll (front ++ first :: word)
  -- The characters before the span are not covered.
  have covered (rest : List Char) : charactersBetween (String.utf8Len front)
      (String.utf8Len (front ++ first :: word)) (String.utf8Len before)
        (Text.lastRow front ++ rest) = charactersBetween (String.utf8Len front)
          (String.utf8Len (front ++ first :: word)) (String.utf8Len front) rest := by
    rw [charactersBetween_append, charactersBetween_before (Nat.le_of_eq size.symm), Nat.zero_add,
      ← size]
  by_cases single : '\n' ∈ first :: word
  · -- A span over several rows covers what is left of the first of them.
    obtain ⟨head, tail, cut, level⟩ := List.eq_append_cons_of_mem single
    have goes : ∀ c ∈ head, (c != '\n') = true := fun c member =>
      bne_iff_ne.mpr fun feed => level (feed ▸ member)
    have row : (first :: word ++ more).takeWhile (· != '\n') = head := by
      rw [cut, List.append_assoc, List.takeWhile_append_of_pos goes]
      simp
    obtain ⟨rest, begun⟩ := isPrefix_first front (word ++ more) visible
    rw [← List.cons_append, ← trimmed, List.append_assoc] at begun
    obtain ⟨count, returns⟩ := trimReturns_returns (Text.lastRow front ++ head)
    rw [row] at trimmed
    rw [← trimmed, ← begun, List.append_assoc, List.append_cancel_left_eq] at returns
    have lines : (Span.after front (first :: word)).start.line ≠
        (Span.after front (first :: word)).stop.line := by
      have feeds := List.count_pos_iff.mpr single
      rw [Span.after, startLine, stopLine, List.count_append]
      omega
    have inside : String.utf8Len front + String.utf8Len ([first] ++ rest) ≤
        String.utf8Len (front ++ first :: word) := by
      rw [cut, returns]
      simp only [String.utf8Len_append]
      omega
    rw [LineIndex.caretCount, if_neg lines, ← begun, covered,
      charactersBetween_inside (Nat.le_refl _) inside, List.length_append]
    rw [show (Span.after front (first :: word)).start.column = _ from startColumn]
    rw [Nat.add_sub_cancel, Nat.add_sub_cancel_left]
  · -- A span within a row covers its own characters, all of which are shown.
    obtain ⟨rest, begun⟩ := isPrefix_shown front more single (List.cons_ne_nil _ _) last
    rw [← trimmed, List.append_assoc] at begun
    have lines : (Span.after front (first :: word)).start.line =
        (Span.after front (first :: word)).stop.line := by
      rw [Span.after, startLine, stopLine, List.count_append, List.count_eq_zero.mpr single]
    have width : charactersBetween (String.utf8Len front) (String.utf8Len (front ++ first :: word))
        (String.utf8Len front) (first :: word ++ rest) = (first :: word).length := by
      have whole := String.utf8Len_append front (first :: word)
      rw [charactersBetween_append, charactersBetween_inside (Nat.le_refl _) (Nat.le_of_eq whole.symm),
        charactersBetween_behind (Nat.le_of_eq whole), Nat.add_zero]
    rw [LineIndex.caretCount, if_pos lines, ← begun, covered, width]
    rw [show (Span.after front (first :: word)).start.column = _ from startColumn,
      show (Span.after front (first :: word)).stop.column = _ from stopColumn,
      Text.lastRow_append single, List.length_append]
    rw [Nat.add_right_comm, Nat.add_sub_cancel_left]

theorem Span.Marks.shown {text : List Char} {span : Span} (marks : span.Marks text) :
    ∃ before row after quoted, Row text span before row after quoted ∧
      Shown text span before row quoted := by
  cases marks with
  | @word front word back whole nonempty first last =>
    subst whole
    rw [List.append_assoc]
    obtain ⟨before, after, quoted, found, split, trimmed⟩ := exists_row front (word ++ back)
    obtain ⟨row, line⟩ := found (.after front word) rfl
    obtain ⟨c, word', rfl⟩ := List.exists_cons_of_ne_nil nonempty
    have visible : Text.isBlank c = false := first c rfl
    have start := Span.start_after front (c :: word')
    have stop := Span.stop_after front (c :: word')
    have column : (Span.after front (c :: word')).start.column = (Text.lastRow front).length + 1 :=
      (Position.place_advanceAll front).2
    refine ⟨before, _, after, quoted, row, ?_, fun message => ?_, fun _ => ?_⟩
    · exact column ▸ Nat.succ_pos _
    · rw [describe_of_line line, column, start, stop, charactersBetween_lastRow split,
        caretCount_after visible last split trimmed]
      rfl
    · obtain ⟨rest, shown⟩ := isPrefix_first front (word' ++ back) visible
      have same : Text.lastRow front ++ ([c] ++ rest) = quoted := by
        rw [← List.append_assoc, shown, trimmed]
        rfl
      rw [start, charactersBetween_lastRow split, ← same, charactersBetween_lastRow split]
  | ended =>
    obtain ⟨before, after, quoted, found, split, trimmed⟩ := exists_row text []
    obtain ⟨row, line⟩ := found (.single (Position.start.advanceAll text)) rfl
    rw [List.append_nil] at row line
    have start : (Span.single (Position.start.advanceAll text)).start.offset = String.utf8Len text :=
      offset_start text
    have column : (Span.single (Position.start.advanceAll text)).start.column =
        (Text.lastRow text).length + 1 := (Position.place_advanceAll text).2
    have size := congrArg String.utf8Len split
    rw [String.utf8Len_append] at size
    refine ⟨before, _, after, quoted, row, ?_, fun message => ?_, fun inside => ?_⟩
    · exact column ▸ Nat.succ_pos _
    · obtain ⟨count, returns⟩ := row.returns
      have shorter := congrArg String.utf8Len returns
      rw [List.takeWhile_nil, List.append_nil, String.utf8Len_append] at shorter
      have uncovered (stop : Nat) : charactersBetween (String.utf8Len text) stop
          (String.utf8Len before) quoted = 0 := charactersBetween_before (by omega)
      have caret : LineIndex.caretCount (.single (Position.start.advanceAll text)) quoted = 1 := by
        simp [LineIndex.caretCount, Span.single]
      rw [describe_of_line line, start, charactersBetween_lastRow split, uncovered, column, caret]
      rfl
    · rw [start] at inside
      exact absurd inside (Nat.lt_irrefl _)

end NandTools.Source
