import NandTools.Token.Scanner

/-! What a scanner skips before a token: white space, line comments and block comments. -/
namespace NandTools.Scanner

open NandTools.Source

/-- White space and comments before `rest`. A line comment reaches to the end of its line or of the
text, a block comment to the first end mark. -/
inductive Trivia (rest : List Char) : List Char → Prop where
  | nil : Trivia rest []
  | blank {c : Char} {more : List Char} (blank : Text.isBlank c = true) (later : Trivia rest more) :
      Trivia rest (c :: more)
  | line {body more : List Char} (single : '\n' ∉ body)
      (ended : ∀ c ∈ (more ++ rest).head?, c = '\n') (later : Trivia rest more) :
      Trivia rest ('/' :: '/' :: body ++ more)
  | block {body more : List Char} (unended : ¬ ['*', '/'] <:+: body) (later : Trivia rest more) :
      Trivia rest ('/' :: '*' :: body ++ '*' :: '/' :: more)

/-- Where skipping ends: at the end of the text or before a character that begins neither white space
nor a comment. -/
def Solid : List Char → Prop
  | [] => True
  | c :: rest => Text.isBlank c = false ∧ (c = '/' → ∀ d ∈ rest.head?, d ≠ '/' ∧ d ≠ '*')

theorem solid_of_visible {c : Char} {rest : List Char} (visible : Text.isBlank c = false)
    (unlined : ∀ more, c = '/' → rest ≠ '/' :: more)
    (unblocked : ∀ more, c = '/' → rest ≠ '*' :: more) : Solid (c :: rest) := by
  refine ⟨visible, ?_⟩
  rintro rfl d first
  obtain ⟨tail, rfl⟩ := List.head?_eq_some_iff.mp first
  constructor
  · rintro rfl
    exact unlined tail rfl rfl
  · rintro rfl
    exact unblocked tail rfl rfl

/-- A scanner has moved over a text without reading a token. -/
structure Passed (s s' : Scanner) (text : List Char) : Prop where
  rest : s.rest = text ++ s'.rest
  position : s'.position = s.position.advanceAll text

namespace Passed

variable {s s' s'' : Scanner} {text more : List Char}

theorem trans (first : Passed s s' text) (second : Passed s' s'' more) :
    Passed s s'' (text ++ more) where
  rest := by rw [first.rest, second.rest, List.append_assoc]
  position := by rw [second.position, first.position, Position.advanceAll_append]

theorem skip {rest : List Char} (found : s.rest = text ++ rest) : Passed s (s.skip text rest) text :=
  ⟨found, rfl⟩

theorem countComment {length : Nat} (passed : Passed s s' text)
    (counted : s'.countComment length = (.ok (), s'')) : Passed s s'' text := by
  unfold Scanner.countComment at counted
  split at counted
  · cases counted
  · cases counted
    exact ⟨passed.rest, passed.position⟩

end Passed

/-- What is cut off ends in the first end mark. -/
theorem of_commentEnd? {seen text comment rest : List Char}
    (found : commentEnd? seen text = some (comment, rest)) :
    ∃ body, text = body ++ '*' :: '/' :: rest ∧ comment = seen.reverse ++ body ++ ['*', '/'] ∧
      ¬ ['*', '/'] <:+: body := by
  fun_induction commentEnd? seen text with
  | case1 seen tail =>
    cases found
    exact ⟨[], rfl, by simp, by simp⟩
  | case2 seen c tail unended ih =>
    obtain ⟨body, rfl, rfl, inside⟩ := ih found
    refine ⟨c :: body, rfl, by simp, fun mark => ?_⟩
    rcases List.infix_cons_iff.mp mark with ⟨more, first⟩ | later
    · obtain ⟨rfl, rfl⟩ := List.cons.inj first
      exact unended (more ++ '*' :: '/' :: rest) rfl (by simp)
    · exact inside later
  | case3 => cases found

/-- What is left of a text begins with a character that stopped the scanner. -/
theorem stops_of_dropWhile (goes : Char → Bool) (text : List Char) :
    ∀ c ∈ (text.dropWhile goes).head?, goes c = false := by
  intro c first
  have stopped := List.head?_dropWhile_not goes text
  rw [Option.mem_def.mp first] at stopped
  exact stopped

variable {s s' : Scanner}

theorem of_lineComment {more : List Char} (found : s.rest = '/' :: '/' :: more)
    (read : s.lineComment = (.ok (), s')) : ∃ body, '\n' ∉ body ∧
      Passed s s' ('/' :: '/' :: body) ∧ ∀ c ∈ s'.rest.head?, c = '\n' := by
  have slashes : s.rest.takeWhile (· != '\n') = '/' :: '/' :: more.takeWhile (· != '\n') := by
    rw [found]
    rfl
  have passed : Passed s s' (s.rest.takeWhile (· != '\n')) :=
    (Passed.skip List.takeWhile_append_dropWhile.symm).countComment read
  refine ⟨more.takeWhile (· != '\n'), fun feed => ?_, slashes ▸ passed, fun c first => ?_⟩
  · exact absurd (List.all_eq_true.mp List.all_takeWhile _ feed) (by decide)
  · have rest : s'.rest = s.rest.dropWhile (· != '\n') := by rw [← rest_lineComment, read]
    rw [rest] at first
    exact bne_eq_false_iff_eq.mp (stops_of_dropWhile _ _ c first)

theorem of_blockComment {more : List Char} (found : s.rest = '/' :: '*' :: more)
    (read : s.blockComment = (.ok (), s')) : ∃ body, ¬ ['*', '/'] <:+: body ∧
      Passed s s' ('/' :: '*' :: body ++ ['*', '/']) := by
  unfold blockComment at read
  split at read
  · next comment rest cut =>
    rw [found] at cut
    obtain ⟨body, text, rfl, unended⟩ := of_commentEnd? cut
    refine ⟨body, unended, (Passed.skip ?_).countComment read⟩
    have shown : more = body ++ '*' :: '/' :: rest := text
    simp [found, shown]
  · cases read

/-- What is skipped is trivia, up to something solid. -/
theorem of_skipTrivia (read : s.skipTrivia = (.ok (), s')) :
    ∃ gap, Trivia s'.rest gap ∧ Passed s s' gap ∧ Solid s'.rest := by
  fun_induction skipTrivia s with
  | case1 => cases read
  | case2 s more found s₁ line _ ih =>
    obtain ⟨gap, trivia, passed, solid⟩ := ih read
    obtain ⟨body, single, first, ended⟩ := of_lineComment found line
    rw [passed.rest] at ended
    exact ⟨_, .line single ended trivia, first.trans passed, solid⟩
  | case3 => cases read
  | case4 s more found s₁ block _ ih =>
    obtain ⟨gap, trivia, passed, solid⟩ := ih read
    obtain ⟨body, unended, first⟩ := of_blockComment found block
    have both := first.trans passed
    rw [List.append_assoc] at both
    exact ⟨_, .block unended trivia, both, solid⟩
  | case5 s c rest unlined unblocked found _ blank ih =>
    obtain ⟨gap, trivia, passed, solid⟩ := ih read
    exact ⟨_, .blank blank trivia, (Passed.skip found).trans passed, solid⟩
  | case6 s c rest unlined unblocked found _ blank =>
    cases read
    refine ⟨[], .nil, ⟨rfl, rfl⟩, ?_⟩
    rw [found]
    exact solid_of_visible (by simpa using blank) unlined unblocked
  | case7 s found =>
    cases read
    refine ⟨[], .nil, ⟨rfl, rfl⟩, ?_⟩
    rw [found]
    trivial

end NandTools.Scanner
