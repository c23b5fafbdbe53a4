import NandTools.Proofs.Parser.Spans
import NandTools.Proofs.Source.Excerpt
import NandTools.Proofs.Token.Printing

/-! An error of the parser is shown with the line of the text that it is about, and with carets under
the characters that it speaks of. -/
namespace NandTools

open NandTools.Source

namespace Token

/-- What a token is read from begins and ends with a visible character. -/
private theorem Valid.visible {token : Token} (valid : token.Valid) :
    (∀ c ∈ token.source.head?, Text.isBlank c = false) ∧
      ∀ c ∈ token.source.getLast?, Text.isBlank c = false := by
  have ends : token.Ends [] := Scanner.ends_of_blank nofun
  have solid := Scanner.solid_of_valid valid ends
  constructor
  · intro c first
    obtain ⟨more, shape⟩ := List.head?_eq_some_iff.mp first
    rw [shape] at solid
    exact solid.1
  · have ofParts {text : List Char} (parts : ∀ c ∈ text, Scanner.isWordPart c = true) :
        ∀ c ∈ text.getLast?, Text.isBlank c = false := by
      intro c last
      have part := parts c (List.mem_of_getLast? last)
      cases blank : Text.isBlank c with
      | false => rfl
      | true => rw [Scanner.isWordPart_of_blank blank] at part; cases part
    obtain ⟨kind, literal⟩ := token
    cases kind with
    | keyword word =>
      obtain rfl : literal = word.text := valid
      cases word <;> exact ofParts (List.all_eq_true.mp (by decide))
    | sign sign =>
      obtain rfl : literal = sign.char.toString := valid
      cases sign <;> (rintro c ⟨⟩; decide)
    | integer =>
      obtain ⟨value, read⟩ := Option.isSome_iff_exists.mp valid
      exact ofParts fun c member =>
        Scanner.isWordPart_of_isDigit ((Text.isDigit_of_readNat read).2 c member)
    | string =>
      intro c last
      rw [show Token.source ⟨.string, literal⟩ = '"' :: literal.toList ++ ['"'] from rfl,
        List.getLast?_concat] at last
      cases last
      decide
    | identifier => exact ofParts (Scanner.isWordPart_of_isWord valid.1)
    | endOfInput => exact valid.elim

end Token

namespace Scanner.Tiles

variable {text : List Char} {tokens inside : List (Located Token)} {token : Located Token} {span : Span}

/-- A token marks what it was read from. -/
theorem marks (tiles : Tiles [] text tokens) (member : token ∈ tokens) : token.span.Marks text := by
  obtain ⟨valid, front, back, whole, placed⟩ := tiles.stands token member
  obtain ⟨first, last⟩ := valid.visible
  rw [placed]
  exact .word whole valid.source_ne_nil first last

/-- Two fronts of one text: the one with fewer bytes is a front of the other. -/
private theorem isPrefix_of_utf8Len {front other : List Char} (here : front <+: text)
    (there : other <+: text) (fewer : String.utf8Len front ≤ String.utf8Len other) :
    front <+: other := by
  rcases List.prefix_or_prefix_of_prefix here there with shorter | ⟨more, rfl⟩
  · exact shorter
  · have none : String.utf8Len more = 0 := by
      rw [String.utf8Len_append] at fewer
      omega
    obtain rfl := String.utf8Len_eq_zero.mp none
    exact (List.append_nil other).symm ▸ List.prefix_refl other

/-- Tokens that follow one another mark all that stands from the first to the last of them. -/
theorem marks_of_covers (tiles : Tiles [] text tokens) (ordered : Ordered inside)
    (within : inside <:+: tokens) (covers : Covers inside span) : span.Marks text := by
  obtain ⟨first, last, head, final, rfl⟩ := covers
  have firstIn := within.subset (List.mem_of_mem_head? head)
  have lastIn := within.subset (List.mem_of_getLast? final)
  obtain ⟨rest, rfl⟩ := List.head?_eq_some_iff.mp head
  cases rest with
  | nil =>
    cases final
    exact tiles.marks firstIn
  | cons second rest =>
    obtain ⟨valid, front, back, whole, placed⟩ := tiles.stands first firstIn
    obtain ⟨valid', front', back', whole', placed'⟩ := tiles.stands last lastIn
    have later : last ∈ second :: rest := by
      rw [List.getLast?_cons_cons] at final
      exact List.mem_of_getLast? final
    have apart := (List.pairwise_cons.mp ordered.apart).1 last later
    rw [placed, placed', Span.stop_after, Span.start_after] at apart
    have here : front ++ first.value.source <+: text := ⟨back, whole.symm⟩
    have there : front' <+: text := ⟨last.value.source ++ back', by
      rw [← List.append_assoc]
      exact whole'.symm⟩
    obtain ⟨middle, rfl⟩ := isPrefix_of_utf8Len here there apart
    let word := first.value.source ++ (middle ++ last.value.source)
    have same : front ++ first.value.source ++ middle ++ last.value.source = front ++ word := by
      simp [word]
    have whole : text = front ++ word ++ back' := same ▸ whole'
    have marked : Span.after front word = ⟨first.span.start, last.span.stop⟩ := by
      rw [placed, placed', Span.after, Span.after, Span.after, same]
    rw [← marked]
    refine .word whole ?_ ?_ ?_
    · simp [word, valid.source_ne_nil]
    · rw [List.head?_append_of_ne_nil _ valid.source_ne_nil]
      exact valid.visible.1
    · rw [show word = first.value.source ++ middle ++ last.value.source from
        (List.append_assoc _ _ _).symm, List.getLast?_append_of_ne_nil _ valid'.source_ne_nil]
      exact valid'.visible.2

end Scanner.Tiles

/-- A stream of a text is read from its first token on. -/
private theorem facing_of_tokenize {preferences : ScanPreferences} {text : List Char}
    {stream : TokenStream} (read : (tokenize preferences text).result = .ok stream) :
    ∃ tokens, stream.tokens.toList =
        tokens ++ [⟨.endOfInput, .single (Position.start.advanceAll text)⟩] ∧
      Scanner.Tiles [] text tokens ∧
      Parser.Input tokens ⟨.endOfInput, .single (Position.start.advanceAll text)⟩ ∧
      (Parser.ofSupply stream Limits.parseDepth).Facing tokens
        ⟨.endOfInput, .single (Position.start.advanceAll text)⟩ := by
  obtain ⟨tokens, stored, tiles, -, apart⟩ := tokenize_tiles read
  have inside : ∀ token ∈ tokens, token.value.isEnd = false := fun token member =>
    (tiles.stands token member).1.inside
  have first : stream.cursor = 0 := by
    unfold tokenize at read
    dsimp only at read
    split at read
    · cases read
    · cases read
      unfold TokenStream.ofTokens
      split
      · rfl
      · split <;> rfl
  refine ⟨tokens, stored, tiles, ⟨⟨fun token member => (tiles.starts token member).2, apart⟩, inside,
    rfl⟩, rfl, rfl, ?_, inside, rfl⟩
  rw [TokenStream.Holds, Parser.ofSupply, first, List.drop_zero]
  exact stored

/-- The tree that an error calls misplaced: its tokens stand behind those of the construct that
refuses it, and the parser has read as far as the last of them. -/
structure Misplaced (tokens : List (Located Token)) (rule enclosing : Rule) (span : Span)
    (p : Parser TokenStream) (before subtree after : List (Located Token)) : Prop where
  whole : tokens = before ++ subtree ++ after
  covers : Covers subtree span
  refused : ∃ (tree : Tree) (m : Matcher), tree.rule? = some rule ∧
    tree.tokens = subtree.map (·.value) ∧ m.rule = enclosing ∧ m.offer? tree = none ∧
    m.tokens <:+ before.map (·.value)
  ahead : p.Awaits (after.map (·.value))

/-- An error that is met where a text is read as a class is shown with the row of the text that its
span begins in. A tree that is misplaced is spanned from its first token to its last. -/
theorem parseClass_diagnosed {preferences : ScanPreferences} {text : List Char} {stream : TokenStream}
    {e : SyntaxError} {span : Span} {p : Parser TokenStream}
    (read : (tokenize preferences text).result = .ok stream)
    (failed : (Parser.ofSupply stream Limits.parseDepth).parseClass = (.error e, p))
    (spanned : e.span? = some span) :
    (∃ before row after quoted, Row text span before row after quoted ∧
      Shown text span before row quoted) ∧
    ∀ rule enclosing, e = .misplacedRule rule enclosing span → ∃ tokens before subtree after,
      stream.tokens.toList =
        tokens ++ [⟨.endOfInput, .single (Position.start.advanceAll text)⟩] ∧
      Misplaced tokens rule enclosing span p before subtree after := by
  obtain ⟨tokens, stored, tiles, input, facing⟩ := facing_of_tokenize read
  have blames := facing.blames input failed
  have marked {found : Token} (member : ⟨found, span⟩ ∈ tokens ++
      [⟨.endOfInput, .single (Position.start.advanceAll text)⟩]) : span.Marks text := by
    rcases List.mem_append.mp member with inside | last
    · exact tiles.marks inside
    · obtain ⟨-, rfl⟩ := Located.mk.inj (List.mem_singleton.mp last)
      exact .ended
  cases e with
  | incompleteRule | unexpectedToken | trailingInput =>
    cases spanned
    exact ⟨(marked blames).shown, nofun⟩
  | misplacedRule rule enclosing =>
    cases spanned
    obtain ⟨front, subtree, behind, tree, m, stands, covers, named, spelled, inside, refused, taken⟩ :=
      blames
    have ordered := stands.ordered input (List.suffix_append _ _).isInfix
    have within : subtree <:+: tokens := ⟨front, behind, stands.whole⟩
    refine ⟨(tiles.marks_of_covers ordered within covers).shown, ?_⟩
    rintro _ _ ⟨⟩
    exact ⟨tokens, front, subtree, behind, stored, stands.whole.symm, covers,
      ⟨tree, m, named, spelled, inside, refused, taken⟩, stands.awaits input⟩
  | emptyInput | maxRecursionDepth | lexical => cases spanned

/-- The error that is met where a text is read as a class, and its span. -/
private def diagnosis? (text : String) : Option (SyntaxError × Span) := do
  let stream ← (tokenize ⟨true, true⟩ text.toList).result.toOption
  match (Parser.ofSupply stream Limits.parseDepth).parseClass.1 with
  | .error e => e.span?.map (e, ·)
  | .ok _ => none

private theorem exists_of_diagnosis {text : String} {e : SyntaxError} {span : Span}
    (found : diagnosis? text = some (e, span)) : ∃ stream p,
      (tokenize ⟨true, true⟩ text.toList).result = .ok stream ∧
      (Parser.ofSupply stream Limits.parseDepth).parseClass = (.error e, p) ∧
      e.span? = some span := by
  unfold diagnosis? at found
  cases read : (tokenize ⟨true, true⟩ text.toList).result with
  | error => simp [read, Except.toOption] at found
  | ok stream =>
    simp only [read, Except.toOption, Option.bind_eq_bind, Option.bind_some] at found
    split at found
    · next e' failed =>
      obtain ⟨span', spanned, same⟩ := Option.map_eq_some_iff.mp found
      obtain ⟨rfl, rfl⟩ := Prod.mk.inj same
      exact ⟨stream, _, rfl, Prod.ext failed rfl, spanned⟩
    · cases found

/-- A misplaced declaration that goes on over a line end, behind characters of two bytes. -/
theorem parseClass_diagnosed_of_static :
    let text := "class A \x7b function void f() \x7b \x7d\r\n/*ü*/ static int\r\n  x; \x7d"
    let span : Span := ⟨⟨40, 2, 7⟩, ⟨56, 3, 5⟩⟩
    let e := SyntaxError.misplacedRule .classVarDec .class_ span
    ∃ stream p tokens before subtree after,
      (tokenize ⟨true, true⟩ text.toList).result = .ok stream ∧
      (Parser.ofSupply stream Limits.parseDepth).parseClass = (.error e, p) ∧
      Misplaced tokens .classVarDec .class_ span p before subtree after ∧
      ∃ front row back quoted, Row text.toList span front row back quoted ∧
        Shown text.toList span front row quoted := by
  intro text span e
  have found : diagnosis? text = some (e, span) := by decide +kernel
  obtain ⟨stream, p, read, failed, spanned⟩ := exists_of_diagnosis found
  obtain ⟨shown, misplaced⟩ := parseClass_diagnosed read failed spanned
  obtain ⟨tokens, before, subtree, after, -, apart⟩ := misplaced _ _ rfl
  exact ⟨stream, p, tokens, before, subtree, after, read, failed, apart, shown⟩

/-- Behind the end of a text the carets are indented by its carriage returns too, though the line is
shown without them. -/
theorem parseClass_indented_by_return :
    let text := "class A \x7b\r"
    let quoted := "class A \x7b".toList
    ∃ stream e p, ∃ span : Span, (tokenize ⟨true, true⟩ text.toList).result = .ok stream ∧
      (Parser.ofSupply stream Limits.parseDepth).parseClass = (.error e, p) ∧
      e.span? = some span ∧ Row text.toList span [] text.toList [] quoted ∧
      (LineIndex.ofText text.toList).describe span e.message ≠
        excerpt span.start e.message quoted (charactersBetween 0 span.start.offset 0 quoted)
          (max 1 (charactersBetween span.start.offset span.stop.offset 0 quoted)) := by
  intro text quoted
  let span : Span := ⟨⟨10, 1, 11⟩, ⟨11, 1, 12⟩⟩
  let e := SyntaxError.incompleteRule .class_ (.field (.token (.sign .rbrace))) ⟨.endOfInput, ""⟩ span
  have found : diagnosis? text = some (e, span) := by decide +kernel
  obtain ⟨stream, p, read, failed, spanned⟩ := exists_of_diagnosis found
  refine ⟨stream, e, p, span, read, failed, spanned, ?_, ?_⟩
  · exact ⟨(List.append_nil _).symm, .inl rfl, by decide, nofun, by decide, ⟨1, by decide⟩, by decide⟩
  · decide +kernel

end NandTools
