import NandTools.Proofs.Token.Tiling

/-! Separators between tokens: white space and comments that have ended. They are skipped whole. -/
namespace NandTools

open NandTools.Source

namespace Scanner

/-- White space, line comments that are ended by a line feed, and closed block comments, none of them
too long. -/
inductive Filler : List Char → Prop where
  | nil : Filler []
  | blank {c : Char} {more : List Char} (blank : Text.isBlank c = true) (later : Filler more) :
      Filler (c :: more)
  | line {body more : List Char} (single : '\n' ∉ body)
      (short : String.utf8Len ('/' :: '/' :: body) ≤ Limits.commentBytes) (later : Filler more) :
      Filler ('/' :: '/' :: body ++ '\n' :: more)
  | block {body more : List Char} (unended : ¬ ['*', '/'] <:+: body)
      (short : String.utf8Len ('/' :: '*' :: body ++ ['*', '/']) ≤ Limits.commentBytes)
      (later : Filler more) : Filler ('/' :: '*' :: body ++ '*' :: '/' :: more)

/-- A separator begins with white space. -/
def Separator : List Char → Prop
  | [] => False
  | c :: more => Text.isBlank c = true ∧ Filler more

theorem Separator.filler {gap : List Char} (separator : Separator gap) : Filler gap := by
  cases gap with
  | nil => exact separator.elim
  | cons c more => exact .blank separator.1 separator.2

theorem Separator.head {gap : List Char} (separator : Separator gap) (text : List Char) :
    ∀ c ∈ (gap ++ text).head?, Text.isBlank c = true := by
  intro c first
  cases gap with
  | nil => exact separator.elim
  | cons blank more =>
    cases first
    exact separator.1

variable {s s' : Scanner} {gap rest more body : List Char} {c : Char}

theorem commentEnd?_of_unended (seen : List Char) (unended : ¬ ['*', '/'] <:+: body) :
    commentEnd? seen (body ++ '*' :: '/' :: rest) =
      some (seen.reverse ++ body ++ ['*', '/'], rest) := by
  induction body generalizing seen with
  | nil =>
    rw [List.nil_append, commentEnd?]
    simp
  | cons first body ih =>
    have inner : ¬ ['*', '/'] <:+: body := fun mark => unended (List.infix_cons mark)
    rw [List.cons_append, commentEnd?, ih (first :: seen) inner]
    · simp
    · rintro tail rfl same
      cases body with
      | nil => cases same
      | cons second body =>
        obtain ⟨rfl, -⟩ := List.cons.inj same
        exact unended ⟨[], body, rfl⟩

theorem countComment_of_short {length : Nat} (short : length ≤ Limits.commentBytes) :
    ∃ s', s.countComment length = (.ok (), s') ∧ s'.rest = s.rest ∧ s'.tokens = s.tokens := by
  rw [countComment, if_neg (Nat.not_lt_of_le short)]
  exact ⟨_, rfl, rfl, rfl⟩

theorem takeWhile_of_stop {goes : Char → Bool} {front : List Char}
    (inside : ∀ c ∈ front, goes c = true) (stop : ∀ c ∈ rest.head?, goes c = false) :
    (front ++ rest).takeWhile goes = front ∧ (front ++ rest).dropWhile goes = rest := by
  rw [List.takeWhile_append_of_pos inside, List.dropWhile_append_of_pos inside]
  cases rest with
  | nil => simp
  | cons c rest => simp [stop c rfl]

theorem lineComment_of_short (found : s.rest = '/' :: '/' :: body ++ '\n' :: rest)
    (single : '\n' ∉ body) (short : String.utf8Len ('/' :: '/' :: body) ≤ Limits.commentBytes) :
    ∃ s', s.lineComment = (.ok (), s') ∧ s'.rest = '\n' :: rest ∧ s'.tokens = s.tokens := by
  have inside : ∀ c ∈ '/' :: '/' :: body, (c != '\n') = true := by
    intro c member
    rw [bne_iff_ne]
    rintro rfl
    exact single (by simpa using member)
  have stop : ∀ c ∈ ('\n' :: rest).head?, (c != '\n') = false := by simp
  obtain ⟨taken, left⟩ := takeWhile_of_stop inside stop
  have counted := countComment_of_short (s := s.skip ('/' :: '/' :: body) ('\n' :: rest)) short
  rw [lineComment, found, taken, left, byteLength_eq]
  exact counted

theorem blockComment_of_short (found : s.rest = '/' :: '*' :: body ++ '*' :: '/' :: rest)
    (unended : ¬ ['*', '/'] <:+: body)
    (short : String.utf8Len ('/' :: '*' :: body ++ ['*', '/']) ≤ Limits.commentBytes) :
    ∃ s', s.blockComment = (.ok (), s') ∧ s'.rest = rest ∧ s'.tokens = s.tokens := by
  have cut : commentEnd? ['*', '/'] (s.rest.drop 2) =
      some ('/' :: '*' :: body ++ ['*', '/'], rest) := by
    rw [found]
    exact commentEnd?_of_unended ['*', '/'] unended
  have counted := countComment_of_short
    (s := s.skip ('/' :: '*' :: body ++ ['*', '/']) rest) short
  rw [blockComment, cut]
  simp only [byteLength_eq]
  exact counted

/-- One round of skipping. -/
private theorem skipTrivia_eq (s : Scanner) : s.skipTrivia =
    match s.rest with
    | '/' :: '/' :: _ =>
      match s.lineComment with
      | (.error e, s') => (.error e, s')
      | (.ok (), s') => s'.skipTrivia
    | '/' :: '*' :: _ =>
      match s.blockComment with
      | (.error e, s') => (.error e, s')
      | (.ok (), s') => s'.skipTrivia
    | c :: rest => if Text.isBlank c then (s.skip [c] rest).skipTrivia else (.ok (), s)
    | [] => (.ok (), s) := by
  rw [skipTrivia]
  split
  · next found => split <;> next same => simp only [found, same]
  · next found => split <;> next same => simp only [found, same]
  · next unlined unblocked found =>
    dsimp only
    rw [found]
    symm
    split
    · next same => cases same; exact (unlined _ rfl rfl).elim
    · next same => cases same; exact (unblocked _ rfl rfl).elim
    · next same => cases same; rfl
    · next same => cases same
  · next found => rw [found]

/-- What is solid is not skipped. -/
theorem skipTrivia_of_solid (solid : Solid s.rest) : s.skipTrivia = (.ok (), s) := by
  rw [skipTrivia_eq]
  cases found : s.rest with
  | nil => rfl
  | cons c rest =>
    rw [found] at solid
    obtain ⟨visible, division⟩ := solid
    split
    · next same => cases same; exact absurd rfl (division rfl '/' rfl).1
    · next same => cases same; exact absurd rfl (division rfl '*' rfl).2
    · next same =>
      cases same
      rw [visible]
      rfl
    · rfl

/-- Separators are skipped up to what is solid. -/
theorem skipTrivia_of_filler (filler : Filler gap) (found : s.rest = gap ++ rest)
    (solid : Solid rest) :
    ∃ s', s.skipTrivia = (.ok (), s') ∧ s'.rest = rest ∧ s'.tokens = s.tokens := by
  induction filler generalizing s with
  | nil =>
    rw [List.nil_append] at found
    rw [← found] at solid
    exact ⟨s, skipTrivia_of_solid solid, found, rfl⟩
  | @blank c more blank _ ih =>
    have slash : c ≠ '/' := by
      rintro rfl
      cases blank
    obtain ⟨s', skipped, left, same⟩ := ih (s := s.skip [c] (more ++ rest)) rfl
    refine ⟨s', ?_, left, same⟩
    rw [skipTrivia_eq, found, ← skipped]
    simp [slash, blank]
  | @line body more single short _ ih =>
    simp only [List.append_assoc, List.cons_append] at found
    obtain ⟨s₁, read, feed, kept⟩ := lineComment_of_short found single short
    obtain ⟨s', skipped, left, same⟩ := ih (s := s₁.skip ['\n'] (more ++ rest)) rfl
    refine ⟨s', ?_, left, same.trans kept⟩
    rw [skipTrivia_eq, found]
    simp only [read]
    rw [skipTrivia_eq, feed, ← skipped]
    rfl
  | @block body more unended short _ ih =>
    simp only [List.append_assoc, List.cons_append] at found
    obtain ⟨s₁, read, after, kept⟩ := blockComment_of_short found unended short
    obtain ⟨s', skipped, left, same⟩ := ih after
    refine ⟨s', ?_, left, same.trans kept⟩
    rw [skipTrivia_eq, found]
    simp only [read, skipped]

end Scanner

end NandTools
