import NandTools.Text.Blank

/-! Texts cut at blanks: what is left between the outermost, and the words between any. -/
namespace NandTools.Text

/-- A text without the blanks around it. -/
structure Trims (text inner : List Char) : Prop where
  around : ∃ before after, text = before ++ (inner ++ after) ∧
    (∀ c ∈ before, isBlank c = true) ∧ ∀ c ∈ after, isBlank c = true
  first : ∀ c, inner.head? = some c → isBlank c = false
  last : ∀ c, inner.getLast? = some c → isBlank c = false

private theorem dropWhile_blanks {blanks text : List Char} (blank : ∀ c ∈ blanks, isBlank c = true)
    (first : ∀ c, text.head? = some c → isBlank c = false) :
    (blanks ++ text).dropWhile isBlank = text := by
  rw [List.dropWhile_append_of_pos blank]
  cases text with
  | nil => rfl
  | cons c rest => exact List.dropWhile_cons_of_neg (by simp [first c rfl])

theorem Trims.trim_eq {text inner : List Char} (trims : Trims text inner) : trim text = inner := by
  obtain ⟨⟨before, after, rfl, front, back⟩, first, last⟩ := trims
  have ended : trimEnd (inner ++ after) = inner := by
    rw [trimEnd, List.reverse_append, dropWhile_blanks (by simpa using back), List.reverse_reverse]
    intro c head
    rw [List.head?_reverse] at head
    exact last c head
  by_cases empty : inner = []
  · subst empty
    rw [trim, List.dropWhile_append_of_pos front]
    rw [List.nil_append, ← List.append_nil after, List.dropWhile_append_of_pos back]
    rfl
  · have begins : ∀ c, (inner ++ after).head? = some c → isBlank c = false := by
      intro c head
      obtain ⟨visible, rest, rfl⟩ := List.exists_cons_of_ne_nil empty
      exact first c head
    rw [trim, dropWhile_blanks front begins, ended]

theorem trims_trim (text : List Char) : Trims text (trim text) := by
  have cut : text.dropWhile isBlank =
      trim text ++ ((text.dropWhile isBlank).reverse.takeWhile isBlank).reverse := by
    rw [trim, trimEnd, ← List.reverse_append, List.takeWhile_append_dropWhile, List.reverse_reverse]
  constructor
  case around =>
    refine ⟨text.takeWhile isBlank, ((text.dropWhile isBlank).reverse.takeWhile isBlank).reverse,
      ?_, ?_, ?_⟩
    · rw [← cut, List.takeWhile_append_dropWhile]
    · intro c member
      exact List.all_eq_true.mp List.all_takeWhile c member
    · intro c member
      exact List.all_eq_true.mp List.all_takeWhile c (List.mem_reverse.mp member)
  case first =>
    intro c head
    have found : (text.dropWhile isBlank).head? = some c := by
      rw [cut, List.head?_append, head]
      rfl
    have visible := List.head?_dropWhile_not isBlank text
    rw [found] at visible
    simpa using visible
  case last =>
    intro c last
    rw [trim, trimEnd, List.getLast?_reverse] at last
    have visible := List.head?_dropWhile_not isBlank (text.dropWhile isBlank).reverse
    rw [last] at visible
    simpa using visible

/-- A text whose words stand between blanks. -/
inductive Spaced : List (List Char) → List Char → Prop
  | blank {gap : List Char} (blank : ∀ c ∈ gap, isBlank c = true) : Spaced [] gap
  | word {gap word rest : List Char} {words : List (List Char)} (nonempty : word ≠ [])
    (blank : ∀ c ∈ gap, isBlank c = true) (visible : ∀ c ∈ word, isBlank c = false)
    (ended : ∀ c, rest.head? = some c → isBlank c = true) (spaced : Spaced words rest) :
    Spaced (word :: words) (gap ++ (word ++ rest))

section Words

variable {gap text word rest : List Char} {words : List (List Char)}

theorem words_blank {c : Char} (blank : isBlank c = true) (text : List Char) :
    Text.words (c :: text) = Text.words text := by
  rw [Text.words, List.splitOnP_cons_eq_if_modifyHead, if_pos blank]
  rfl

theorem words_gap (blank : ∀ c ∈ gap, isBlank c = true) (text : List Char) :
    Text.words (gap ++ text) = Text.words text := by
  induction gap with
  | nil => rfl
  | cons c gap ih =>
    rw [List.forall_mem_cons] at blank
    rw [List.cons_append, words_blank blank.1, ih blank.2]

theorem words_word (nonempty : word ≠ []) (visible : ∀ c ∈ word, isBlank c = false)
    (ended : ∀ c, rest.head? = some c → isBlank c = true) :
    Text.words (word ++ rest) = word :: Text.words rest := by
  cases rest with
  | nil =>
    rw [List.append_nil, Text.words, List.splitOnP_eq_singleton visible]
    simp [nonempty, Text.words]
  | cons c rest =>
    have blank := ended c rfl
    rw [words_blank blank, Text.words, List.splitOnP_append_cons_of_forall_mem visible c blank]
    simp [nonempty, Text.words]

/-- What is set together with blanks holds nothing else than the words and the blanks. -/
theorem mem_of_intercalate {c : Char} (member : c ∈ [' '].intercalate words) :
    c = ' ' ∨ ∃ word ∈ words, c ∈ word := by
  induction words with
  | nil => cases member
  | cons word others ih =>
    cases others with
    | nil => exact .inr ⟨word, List.mem_cons_self, by simpa using member⟩
    | cons next others =>
      rw [List.intercalate_cons_cons, List.append_assoc] at member
      rcases List.mem_append.mp member with inside | member
      · exact .inr ⟨word, List.mem_cons_self, inside⟩
      rcases List.mem_append.mp member with gap | member
      · exact .inl (List.mem_singleton.mp gap)
      · exact (ih member).imp_right fun ⟨other, among, inside⟩ =>
          ⟨other, List.mem_cons_of_mem word among, inside⟩

/-- Words that are set together with blanks are cut apart again. -/
theorem words_intercalate (nonempty : ∀ word ∈ words, word ≠ [])
    (visible : ∀ word ∈ words, ∀ c ∈ word, isBlank c = false) :
    Text.words ([' '].intercalate words) = words := by
  induction words with
  | nil => rfl
  | cons word others ih =>
    rw [List.forall_mem_cons] at nonempty visible
    cases others with
    | nil =>
      have none : ∀ c, ([] : List Char).head? = some c → isBlank c = true := nofun
      have single := words_word nonempty.1 visible.1 none
      rw [List.append_nil] at single
      rw [List.intercalate_singleton, single]
      rfl
    | cons next others =>
      have blank : isBlank ' ' = true := by decide
      rw [List.intercalate_cons_cons, List.append_assoc, words_word nonempty.1 visible.1,
        List.singleton_append, words_blank blank, ih nonempty.2 visible.2]
      intro c first
      cases first
      exact blank

theorem Spaced.words_eq (spaced : Spaced words text) : Text.words text = words := by
  induction spaced with
  | @blank gap blank =>
    rw [← List.append_nil gap, words_gap blank]
    rfl
  | word nonempty blank visible ended _ ih => rw [words_gap blank, words_word nonempty visible ended, ih]

private theorem spaced_first (nonempty : word ≠ []) (visible : ∀ c ∈ word, isBlank c = false)
    (ended : ∀ c, rest.head? = some c → isBlank c = true) (spaced : Spaced words rest) :
    Spaced (word :: words) (word ++ rest) := by
  have none : ∀ c ∈ ([] : List Char), isBlank c = true := nofun
  exact .word nonempty none visible ended spaced

private theorem spaced_cons {c : Char} (spaced : Spaced words text) :
    ∃ more, Spaced more (c :: text) := by
  cases blank : isBlank c with
  | true =>
    cases spaced with
    | blank gap => exact ⟨[], .blank (List.forall_mem_cons.mpr ⟨blank, gap⟩)⟩
    | word nonempty gap visible ended spaced =>
      exact ⟨_, .word nonempty (List.forall_mem_cons.mpr ⟨blank, gap⟩) visible ended spaced⟩
  | false =>
    have apart (ended : ∀ d, text.head? = some d → isBlank d = true) :
        ∃ more, Spaced more (c :: text) :=
      ⟨[c] :: words, spaced_first (List.cons_ne_nil c []) (by simpa using blank) ended spaced⟩
    cases spaced with
    | blank gap => exact apart fun d head => gap d (List.mem_of_mem_head? head)
    | @word gap word rest words nonempty around visible ended spaced =>
      cases gap with
      | nil =>
        have joined : ∀ d ∈ c :: word, isBlank d = false :=
          List.forall_mem_cons.mpr ⟨blank, visible⟩
        exact ⟨_, spaced_first (List.cons_ne_nil c word) joined ended spaced⟩
      | cons d gap =>
        refine apart fun other head => ?_
        cases head
        exact around d List.mem_cons_self

theorem spaced_words (text : List Char) : Spaced (Text.words text) text := by
  have some_words : ∃ words, Spaced words text := by
    induction text with
    | nil => exact ⟨[], .blank nofun⟩
    | cons c rest ih =>
      obtain ⟨words, spaced⟩ := ih
      exact spaced_cons spaced
  obtain ⟨words, spaced⟩ := some_words
  rwa [spaced.words_eq]

/-- Words do not depend on the blanks around a text. -/
theorem words_trim (text : List Char) : Text.words (trim text) = Text.words text := by
  obtain ⟨before, after, same, front, back⟩ := (trims_trim text).around
  have ended : Text.words (trim text ++ after) = Text.words (trim text) := by
    cases after with
    | nil => rw [List.append_nil]
    | cons c rest =>
      rw [List.forall_mem_cons] at back
      rw [Text.words, List.splitOnP_append_cons _ _ back.1, List.filter_append]
      have gap := words_gap back.2 []
      rw [List.append_nil] at gap
      exact (congrArg (Text.words (trim text) ++ ·) gap).trans (List.append_nil _)
  rw [← ended, ← words_gap front, ← same]

end Words

end NandTools.Text
