import NandTools.Proofs.Text.Blank
import NandTools.Proofs.Token.Separator

/-! Tokens that are printed one after another, with separators between them, are scanned again. -/
namespace NandTools

open NandTools.Source

namespace Token

/-- The tokens of the language, each as it is printed. -/
inductive Written : Token → Prop where
  | keyword (word : Keyword) : Written (.fixed (.keyword word))
  | sign (sign : Sign) : Written (.fixed (.sign sign))
  | integer {digits : List Char} (nonempty : digits ≠ [])
      (numeral : ∀ digit ∈ digits, digit.isDigit = true)
      (small : Nat.ofDigitChars 10 digits 0 ≤ Limits.integer) :
      Written ⟨.integer, .ofList digits⟩
  | string {contents : List Char} (unquoted : '"' ∉ contents) (single : '\n' ∉ contents)
      (small : String.utf8Len contents ≤ Limits.stringBytes) : Written ⟨.string, .ofList contents⟩
  | identifier {letters : List Char} (word : isWord letters = true)
      (short : letters.length ≤ Limits.identifierBytes)
      (free : ∀ keyword : Keyword, keyword.text.toList ≠ letters) :
      Written ⟨.identifier, .ofList letters⟩

theorem Written.valid {token : Token} (written : token.Written) : token.Valid := by
  cases written with
  | keyword word => rfl
  | sign sign => rfl
  | integer nonempty numeral small =>
    rw [Valid, String.toList_ofList, Text.readNat_of_isDigit nonempty numeral small]
    rfl
  | string unquoted single small =>
    rw [Valid, String.toList_ofList, String.utf8ByteSize_ofList]
    exact ⟨unquoted, single, small⟩
  | identifier word short free =>
    rw [Valid, String.toList_ofList, String.length_ofList]
    refine ⟨word, short, List.find?_eq_none.mpr ?_⟩
    intro keyword _ same
    apply free keyword
    rw [eq_of_beq same, String.toList_ofList]

end Token

namespace Scanner

variable {s s' : Scanner} {gap rest more : List Char} {c : Char}

theorem isWordPart_of_blank (blank : Text.isBlank c = true) : isWordPart c = false := by
  rw [isWordPart, Bool.or_eq_false_iff, beq_eq_false_iff_ne]
  constructor
  · cases alphanumeric : c.isAlphanum with
    | false => rfl
    | true => rw [Text.isBlank_of_isAlphanum alphanumeric] at blank; cases blank
  · rintro rfl
    cases blank

theorem isWordPart_of_isWord {letters : List Char} (word : Token.isWord letters = true) :
    ∀ c ∈ letters, isWordPart c = true := by
  intro c member
  cases letters with
  | nil => cases member
  | cons first letters =>
    rw [Token.isWord, Bool.and_eq_true, List.all_eq_true] at word
    rcases List.mem_cons.mp member with rfl | later
    · exact isWordPart_of_isWordStart word.1
    · exact word.2 c later

/-- A word is read up to what is no part of it. -/
theorem word_of_letters {letters : List Char} (found : s.rest = letters ++ rest)
    (word : Token.isWord letters = true) (short : letters.length ≤ Limits.identifierBytes)
    (stop : ∀ c ∈ rest.head?, isWordPart c = false) :
    s.word = (.ok ⟨((Keyword.ofText? (.ofList letters)).map .keyword).getD .identifier,
      .ofList letters⟩, s.skip letters rest) := by
  obtain ⟨taken, left⟩ := takeWhile_of_stop (isWordPart_of_isWord word) stop
  rw [Scanner.word, found, taken, left]
  dsimp only
  rw [if_neg (Nat.not_lt_of_le short)]
  split <;> next same => rw [same]; rfl

theorem number_of_digits {digits : List Char} (found : s.rest = digits ++ rest)
    (valued : (Text.readNat Limits.integer digits).isSome)
    (stop : ∀ c ∈ rest.head?, isWordPart c = false) :
    s.number = (.ok ⟨.integer, .ofList digits⟩, s.skip digits rest) := by
  obtain ⟨value, read⟩ := Option.isSome_iff_exists.mp valued
  have noDigit : ∀ c ∈ rest.head?, c.isDigit = false := by
    intro c first
    have noPart := stop c first
    rw [isWordPart, Char.isAlphanum, Bool.or_eq_false_iff, Bool.or_eq_false_iff] at noPart
    exact noPart.1.2
  obtain ⟨taken, left⟩ := takeWhile_of_stop (Text.isDigit_of_readNat read).2 noDigit
  have tail : rest.takeWhile isWordPart = [] :=
    (takeWhile_of_stop (List.forall_mem_nil _) stop).1
  rw [number, found, taken, left, tail]
  simp [read]

theorem string_of_contents {contents : List Char} (unquoted : '"' ∉ contents)
    (single : '\n' ∉ contents) (small : String.utf8Len contents ≤ Limits.stringBytes) :
    s.string (contents ++ '"' :: rest) =
      (.ok ⟨.string, .ofList contents⟩, s.skip ('"' :: contents ++ ['"']) rest) := by
  have inside : ∀ c ∈ contents, (c != '"' && c != '\n') = true := by
    intro c member
    rw [Bool.and_eq_true, bne_iff_ne, bne_iff_ne]
    exact ⟨fun same => unquoted (same ▸ member), fun same => single (same ▸ member)⟩
  have stop : ∀ c ∈ ('"' :: rest).head?, (c != '"' && c != '\n') = false := by simp
  obtain ⟨taken, left⟩ := takeWhile_of_stop inside stop
  rw [Scanner.string, taken, left]
  simp only [byteLength_eq, if_neg (Nat.not_lt_of_le small)]

private theorem ofChar?_of_isWordPart (part : isWordPart c = true) : Sign.ofChar? c = none := by
  refine List.find?_eq_none.mpr ?_
  intro sign _ same
  rw [← eq_of_beq same] at part
  cases sign <;> cases part

private theorem token_eq_word {letters : List Char} (word : Token.isWord letters = true)
    (first : letters ++ rest = c :: more) : s.token c more = s.word := by
  cases letters with
  | nil => cases word
  | cons letter letters =>
    obtain ⟨rfl, -⟩ := List.cons.inj first
    rw [Token.isWord, Bool.and_eq_true] at word
    have start := word.1
    have noDigit : letter.isDigit = false := by
      cases digit : letter.isDigit with
      | false => rfl
      | true => rw [isWordStart_of_digit digit] at start; cases start
    have noQuote : letter ≠ '"' := by
      rintro rfl
      cases start
    rw [Scanner.token, ofChar?_of_isWordPart (isWordPart_of_isWordStart start)]
    simp [noDigit, noQuote, start]

theorem isWordPart_of_isDigit (digit : c.isDigit = true) : isWordPart c = true := by
  simp [isWordPart, Char.isAlphanum, digit]

theorem token_of_isDigit (digit : c.isDigit = true) : s.token c more = s.number := by
  rw [Scanner.token, ofChar?_of_isWordPart (isWordPart_of_isDigit digit)]
  simp [digit]

variable {token : Token}

/-- A token is read from what it is printed as. -/
theorem token_of_valid (valid : token.Valid) (found : s.rest = token.source ++ rest)
    (ends : token.Ends rest) (first : token.source ++ rest = c :: more) :
    s.token c more = (.ok token, s.skip token.source rest) := by
  obtain ⟨kind, literal⟩ := token
  cases kind with
  | keyword word =>
    obtain rfl : literal = word.text := valid
    have letters : Token.isWord word.text.toList = true ∧
        word.text.toList.length ≤ Limits.identifierBytes ∧ Keyword.ofText? word.text = some word := by
      cases word <;> decide
    obtain ⟨isWord, short, known⟩ := letters
    have printed : s.rest = word.text.toList ++ rest := found
    have read := word_of_letters printed isWord short ends
    rw [String.ofList_toList, known] at read
    exact (token_eq_word isWord first).trans read
  | sign sign =>
    obtain rfl : literal = sign.char.toString := valid
    have known : Sign.ofChar? sign.char = some sign := by cases sign <;> decide
    have single : Token.source ⟨.sign sign, sign.char.toString⟩ = [sign.char] := by
      simp [Token.source, Char.toString]
    rw [single] at first ⊢
    obtain ⟨rfl, rfl⟩ := List.cons.inj first
    rw [Scanner.token, known]
    rfl
  | integer =>
    obtain ⟨value, read⟩ := Option.isSome_iff_exists.mp valid
    obtain ⟨nonempty, numeral⟩ := Text.isDigit_of_readNat read
    have printed : s.rest = literal.toList ++ rest := found
    have number := number_of_digits printed valid ends
    rw [String.ofList_toList] at number
    obtain ⟨digit, digits, shape⟩ := List.exists_cons_of_ne_nil nonempty
    have front : digit :: digits ++ rest = c :: more := shape ▸ first
    obtain ⟨rfl, -⟩ := List.cons.inj front
    have isDigit := numeral digit (by rw [shape]; exact List.mem_cons_self)
    exact (token_of_isDigit isDigit).trans number
  | string =>
    obtain ⟨unquoted, single, small⟩ := valid
    rw [← String.ofList_toList (s := literal), String.utf8ByteSize_ofList] at small
    have quoted : Token.source ⟨.string, literal⟩ = '"' :: literal.toList ++ ['"'] := rfl
    have opening : '"' :: (literal.toList ++ '"' :: rest) = c :: more := by
      rw [← first, quoted]
      simp
    obtain ⟨rfl, rfl⟩ := List.cons.inj opening
    have string : s.string (literal.toList ++ '"' :: rest) = _ :=
      string_of_contents unquoted single small
    rw [String.ofList_toList] at string
    rw [Scanner.token, show Sign.ofChar? '"' = none by decide, quoted]
    exact string
  | identifier =>
    obtain ⟨isWord, short, free⟩ := valid
    have printed : s.rest = literal.toList ++ rest := found
    have read := word_of_letters printed isWord short ends
    rw [String.ofList_toList, free] at read
    exact (token_eq_word isWord first).trans read
  | endOfInput => exact valid.elim

private theorem visible_of_isWordPart (part : isWordPart c = true) :
    Text.isBlank c = false ∧ c ≠ '/' := by
  constructor
  · cases blank : Text.isBlank c with
    | false => rfl
    | true => rw [isWordPart_of_blank blank] at part; cases part
  · rintro rfl
    cases part

/-- The first character of a token that is printed. -/
private theorem head_of_valid (valid : token.Valid) :
    ∃ c more, token.source = c :: more ∧ Text.isBlank c = false ∧
      (c = '/' → token.kind = .sign .slash ∧ more = []) := by
  have ofPart {text : List Char} (nonempty : text ≠ [])
      (part : ∀ c ∈ text.head?, isWordPart c = true) : ∃ c more, text = c :: more ∧
        Text.isBlank c = false ∧ (c = '/' → token.kind = .sign .slash ∧ more = []) := by
    obtain ⟨c, more, rfl⟩ := List.exists_cons_of_ne_nil nonempty
    obtain ⟨visible, noSlash⟩ := visible_of_isWordPart (part c rfl)
    exact ⟨c, more, rfl, visible, fun slash => absurd slash noSlash⟩
  have ofWord {text : List Char} (word : Token.isWord text = true) :
      ∀ c ∈ text.head?, isWordPart c = true := by
    intro c first
    obtain ⟨more, rfl⟩ := List.head?_eq_some_iff.mp first
    rw [Token.isWord, Bool.and_eq_true] at word
    exact isWordPart_of_isWordStart word.1
  have nonempty := valid.source_ne_nil
  obtain ⟨kind, literal⟩ := token
  cases kind with
  | keyword word =>
    obtain rfl : literal = word.text := valid
    exact ofPart nonempty (ofWord (by cases word <;> decide))
  | sign sign =>
    obtain rfl : literal = sign.char.toString := valid
    refine ⟨sign.char, [], by simp [Token.source, Char.toString], ?_⟩
    cases sign <;> decide
  | integer =>
    obtain ⟨value, read⟩ := Option.isSome_iff_exists.mp valid
    refine ofPart nonempty fun c first => ?_
    exact isWordPart_of_isDigit ((Text.isDigit_of_readNat read).2 c (List.mem_of_mem_head? first))
  | string => exact ⟨'"', _, rfl, by decide, fun slash => absurd slash (by decide)⟩
  | identifier => exact ofPart nonempty (ofWord valid.1)
  | endOfInput => exact valid.elim

/-- What a token is printed as begins neither white space nor a comment. -/
theorem solid_of_valid (valid : token.Valid) (ends : token.Ends rest) :
    Solid (token.source ++ rest) := by
  obtain ⟨c, more, source, visible, slash⟩ := head_of_valid valid
  rw [source]
  refine ⟨visible, fun division => ?_⟩
  obtain ⟨kind, rfl⟩ := slash division
  rw [Token.Ends, kind] at ends
  exact ends

/-- A token ends where white space follows it, or nothing. -/
theorem ends_of_blank (separated : ∀ c ∈ rest.head?, Text.isBlank c = true) : token.Ends rest := by
  have division : ∀ c ∈ rest.head?, c ≠ '/' ∧ c ≠ '*' := by
    intro c first
    constructor
    all_goals
      rintro rfl
      cases separated _ first
  have part : ∀ c ∈ rest.head?, isWordPart c = false :=
    fun c first => isWordPart_of_blank (separated c first)
  obtain ⟨kind, literal⟩ := token
  cases kind with
  | keyword word => exact part
  | sign sign => cases sign <;> first | exact division | trivial
  | integer => exact part
  | string => trivial
  | identifier => exact part
  | endOfInput => trivial

theorem next_of_filler (filler : Filler gap) (valid : token.Valid)
    (found : s.rest = gap ++ (token.source ++ rest)) (ends : token.Ends rest)
    (room : s.tokens < Limits.tokens) :
    ∃ span s', s.next = (.ok ⟨token, span⟩, s') ∧ s'.rest = rest ∧ s'.tokens = s.tokens + 1 := by
  obtain ⟨s₁, skipped, left, same⟩ := skipTrivia_of_filler filler found (solid_of_valid valid ends)
  cases first : token.source ++ rest with
  | nil => exact absurd (List.append_eq_nil_iff.mp first).1 valid.source_ne_nil
  | cons c more =>
    have read := token_of_valid valid left ends first
    rw [first] at left
    rw [← same] at room ⊢
    refine ⟨⟨s₁.position, (s₁.skip token.source rest).position⟩,
      { s₁.skip token.source rest with tokens := s₁.tokens + 1 }, ?_, rfl, rfl⟩
    rw [next, skipped]
    simp only [left, read, ge_iff_le, if_neg (Nat.not_le_of_lt room)]
    rfl

theorem next_of_end (filler : Filler gap) (found : s.rest = gap) :
    ∃ span s', s.next = (.ok ⟨.endOfInput, span⟩, s') := by
  obtain ⟨s', skipped, left, -⟩ :=
    skipTrivia_of_filler filler (found.trans (List.append_nil gap).symm) trivial
  have read : s.next = (.ok ⟨.endOfInput, .single s'.position⟩, s') := by
    rw [next, skipped]
    simp only [left]
  exact ⟨_, _, read⟩

variable {acc : Array (Located Token)} {drawn : Located Token}

theorem drain_of_next (read : s.next = (.ok drawn, s')) (inside : drawn.value.isEnd = false) :
    s.drain acc = s'.drain (acc.push drawn) := by
  rw [drain]
  split
  · next same => cases read.symm.trans same
  · next same =>
    cases read.symm.trans same
    rw [dif_neg (by simp [inside])]

theorem drain_of_end (read : s.next = (.ok drawn, s')) (ended : drawn.value.isEnd = true) :
    s.drain acc = ⟨acc, .ok drawn, s'⟩ := by
  rw [drain]
  split
  · next same => cases read.symm.trans same
  · next same =>
    cases read.symm.trans same
    rw [dif_pos ended]

end Scanner

namespace Token

/-- The text is made of these tokens one after another, with a separator after each of them, except
perhaps the last. -/
inductive Printed : List Token → List Char → Prop where
  | nil : Printed [] []
  | last {token : Token} (written : token.Written) : Printed [token] token.source
  | token {token : Token} {tokens : List Token} {gap text : List Char} (written : token.Written)
      (separator : Scanner.Separator gap) (later : Printed tokens text) :
      Printed (token :: tokens) (token.source ++ (gap ++ text))

end Token

namespace Scanner

variable {s : Scanner} {gap text : List Char} {tokens : List Token}

/-- Printed tokens are drained from the scanner that stands before them. -/
theorem drain_of_printed (printed : Token.Printed tokens text) (filler : Filler gap)
    (found : s.rest = gap ++ text) (room : s.tokens + tokens.length ≤ Limits.tokens)
    (acc : Array (Located Token)) :
    ∃ last more, (s.drain acc).ending = .ok last ∧ last.value = .endOfInput ∧
      (s.drain acc).tokens.toList = acc.toList ++ more ∧ more.map (·.value) = tokens := by
  induction printed generalizing s gap acc with
  | nil =>
    obtain ⟨span, s', read⟩ := next_of_end filler (found.trans (List.append_nil gap))
    rw [drain_of_end read rfl]
    exact ⟨_, [], rfl, rfl, (List.append_nil _).symm, rfl⟩
  | @last token written =>
    rw [← List.append_nil token.source] at found
    obtain ⟨span, s', read, left, -⟩ :=
      next_of_filler filler written.valid found (ends_of_blank (by simp)) room
    obtain ⟨after, s'', ended⟩ := next_of_end .nil left
    rw [drain_of_next read written.valid.inside, drain_of_end ended rfl]
    exact ⟨_, [⟨token, span⟩], rfl, rfl, Array.toList_push, rfl⟩
  | @token token tokens gap' text written separator later ih =>
    have ends : token.Ends (gap' ++ text) := ends_of_blank (separator.head text)
    rw [List.length_cons] at room
    obtain ⟨span, s', read, left, count⟩ :=
      next_of_filler filler written.valid found ends (by omega)
    obtain ⟨last, more, ended, end_, drained, values⟩ :=
      ih separator.filler left (by omega) (acc.push ⟨token, span⟩)
    rw [drain_of_next read written.valid.inside]
    refine ⟨last, ⟨token, span⟩ :: more, ended, end_, ?_, by rw [List.map_cons, values]⟩
    rw [drained, Array.toList_push, List.append_assoc]
    rfl

end Scanner

/-- Tokens that are printed with separators between them are scanned as they were printed, and the end
of the input after them. -/
theorem tokenize_printed {preferences : ScanPreferences} {tokens : List Token} {gap text : List Char}
    (filler : Scanner.Filler gap) (printed : Token.Printed tokens text)
    (room : tokens.length ≤ Limits.tokens) : ∃ stream,
      (tokenize preferences (gap ++ text)).result = .ok stream ∧
        stream.tokens.toList.map (·.value) = tokens ++ [.endOfInput] := by
  obtain ⟨last, more, ended, end_, drained, values⟩ := Scanner.drain_of_printed
    (s := .ofText (gap ++ text)) printed filler rfl (by simpa [Scanner.ofText] using room) #[]
  unfold tokenize
  simp only [ended]
  refine ⟨_, rfl, ?_⟩
  rw [TokenStream.ofTokens, Array.back?_push]
  have closed : Token.endOfInput.isEnd = true := rfl
  simp [end_, closed, drained, values]

theorem tokenize_printed_of_comments : ∃ stream,
    (tokenize ⟨true, true⟩ "// \"é\n/ /***/7\t\"/* ü\" // let\n let x_1".toList).result =
      .ok stream ∧
    stream.tokens.toList.map (·.value) =
      [.fixed (.sign .slash), ⟨.integer, "7"⟩, ⟨.string, "/* ü"⟩, .fixed (.keyword .let_),
        ⟨.identifier, "x_1"⟩, .endOfInput] := by
  have heading : Scanner.Filler "// \"é\n".toList :=
    @Scanner.Filler.line " \"é".toList _ (by decide) (by decide) .nil
  have star : Scanner.Separator " /***/".toList :=
    ⟨by decide, @Scanner.Filler.block ['*'] _ (by decide) (by decide) .nil⟩
  have tab : Scanner.Separator "\t".toList := ⟨by decide, .nil⟩
  have comment : Scanner.Separator " // let\n ".toList :=
    ⟨by decide, @Scanner.Filler.line " let".toList _ (by decide) (by decide) (.blank (by decide) .nil)⟩
  have space : Scanner.Separator " ".toList := ⟨by decide, .nil⟩
  have printed : Token.Printed
      [.fixed (.sign .slash), ⟨.integer, "7"⟩, ⟨.string, "/* ü"⟩, .fixed (.keyword .let_),
        ⟨.identifier, "x_1"⟩] "/ /***/7\t\"/* ü\" // let\n let x_1".toList :=
    .token (.sign .slash) star <|
    .token (@Token.Written.integer ['7'] (by decide) (List.forall_mem_singleton.mpr rfl)
      (by decide)) tab <|
    .token (@Token.Written.string "/* ü".toList (by decide) (by decide) (by decide)) comment <|
    .token (.keyword .let_) space <|
    .last (@Token.Written.identifier "x_1".toList (by decide) (by decide)
      fun keyword => by cases keyword <;> decide)
  have whole : "// \"é\n/ /***/7\t\"/* ü\" // let\n let x_1".toList =
      "// \"é\n".toList ++ "/ /***/7\t\"/* ü\" // let\n let x_1".toList := by
    decide +kernel
  rw [whole]
  exact tokenize_printed heading printed (by decide)

end NandTools
