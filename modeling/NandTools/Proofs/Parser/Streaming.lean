import NandTools.Parser.Report
import NandTools.Proofs.Parser.Agreement
import NandTools.Proofs.Token.Printing
import NandTools.Proofs.Token.Yields

/-! A text is parsed alike whether its tokens are drawn one by one while it is scanned or taken from
the stream that it has been scanned into. -/
namespace NandTools

open NandTools.Source

namespace Scanner

variable {s s' : Scanner} {drawn last : Located Token} {acc : Array (Located Token)}

/-- At the end of the text the same end is drawn again. -/
theorem next_of_ended (read : s.next = (.ok drawn, s')) (ended : drawn.value.isEnd = true) :
    s'.next = (.ok drawn, s') := by
  unfold next at read
  split at read
  · cases read
  · next s₁ skipped =>
    obtain ⟨_, _, _, solid⟩ := of_skipTrivia skipped
    split at read
    · next empty =>
      cases read
      rw [next, skipTrivia_of_solid solid]
      simp only [empty]
    · next c rest found =>
      split at read
      · cases read
      · split at read
        · cases read
        · next token s₂ scanned =>
          cases read
          have inside := (of_token found solid scanned).1.inside
          rw [inside] at ended
          cases ended

/-- The scanner yields these tokens and then this end of the input. -/
inductive Leads : Scanner → List (Located Token) → Located Token → Prop where
  | ended {s s' : Scanner} {last : Located Token} (read : s.next = (.ok last, s'))
      (end_ : last.value.isEnd = true) : Leads s [] last
  | token {s s' : Scanner} {token last : Located Token} {tokens : List (Located Token)}
      (read : s.next = (.ok token, s')) (inside : token.value.isEnd = false)
      (later : Leads s' tokens last) : Leads s (token :: tokens) last

/-- The scanner fails with `e` before the text ends. -/
inductive Fails (e : LexicalError) : Scanner → Prop where
  | now {s s' : Scanner} (read : s.next = (.error e, s')) : Fails e s
  | later {s s' : Scanner} {token : Located Token} (read : s.next = (.ok token, s'))
      (inside : token.value.isEnd = false) (fails : Fails e s') : Fails e s

theorem Leads.ends {tokens : List (Located Token)} (leads : s.Leads tokens last) :
    last.value.isEnd = true := by
  induction leads with
  | ended _ end_ => exact end_
  | token _ _ _ ih => exact ih

theorem leads_of_drain (ended : (s.drain acc).ending = .ok last) :
    ∃ tokens, (s.drain acc).tokens.toList = acc.toList ++ tokens ∧ s.Leads tokens last := by
  fun_induction drain s acc with
  | case1 => cases ended
  | case2 s acc token s' read more =>
    cases ended
    exact ⟨[], (List.append_nil _).symm, .ended read more⟩
  | case3 s acc token s' read more _ ih =>
    obtain ⟨tokens, drained, leads⟩ := ih ended
    refine ⟨token :: tokens, ?_, .token read (by simpa using more) leads⟩
    rw [drained, Array.toList_push, List.append_assoc]
    rfl

theorem fails_of_drain {e : LexicalError} (failed : (s.drain acc).ending = .error e) :
    s.Fails e := by
  fun_induction drain s acc with
  | case1 s acc e' s' read =>
    cases failed
    exact .now read
  | case2 => cases failed
  | case3 s acc token s' read more _ ih => exact .later read (by simpa using more) (ih failed)

end Scanner

/-- A scanner that does not fail, and the stream of what it yields. -/
def Pairing.streamed : Pairing Scanner TokenStream where
  same failure? s t := failure? = none ∧ ∃ tokens last, s.Leads tokens last ∧ t.Holds tokens last
  limit := Limits.parseDepth
  slack := 0
  inStep := by
    rintro s t ⟨-, tokens, last, leads, holds⟩
    simp only [TokenSupply.next]
    cases leads with
    | ended read end_ =>
      rw [read, TokenStream.next_of_last holds end_]
      exact ⟨rfl, rfl, [], last, .ended (Scanner.next_of_ended read end_) end_, holds⟩
    | token read inside later =>
      obtain ⟨drawn, holds⟩ := TokenStream.next_of_more holds inside
      rw [read, drawn]
      exact ⟨rfl, rfl, _, last, later, holds⟩

/-- A scanner that fails with `e`, beside itself. -/
def Pairing.failing (e : LexicalError) : Pairing Scanner Scanner where
  same failure? s t := s = t ∧
    match failure? with
    | none => s.Fails e
    | some cause => cause = e
  limit := Limits.parseDepth
  slack := 0
  inStep := by
    rintro s _ ⟨rfl, fails⟩
    refine ⟨rfl, rfl, ?_⟩
    simp only [TokenSupply.next]
    cases fails with
    | now read =>
      rw [read]
      rfl
    | later read _ fails =>
      rw [read]
      exact fails

namespace Parser

variable {σ : Type} [TokenSupply σ] {read : Reader σ} {m : Matcher} {p : Parser σ}
  {cause : LexicalError}

/-- Only failures of the supply are reported as such. -/
def Plain (read : Reader σ) : Prop :=
  ∀ rule callee? p cause, (read rule callee? p).val.1 ≠ .error (.lexical cause)

private theorem seed_plain (m : Matcher) (child : Located Tree) :
    seed m child ≠ .error (.lexical cause) := by
  unfold seed
  split
  · rintro ⟨⟩
  · split <;> rintro ⟨⟩

omit [TokenSupply σ] in
private theorem map_plain {α β : Type} {f : α → β} {out : Except SyntaxError α}
    (plain : out ≠ .error (.lexical cause)) : out.map f ≠ .error (.lexical cause) := by
  intro failed
  cases out with
  | ok a => cases failed
  | error e =>
    cases failed
    exact plain rfl

omit [TokenSupply σ] in
private theorem andThen_plain {α β : Type} {out : Except SyntaxError α × Parser σ}
    {next : α → Parser σ → Except SyntaxError β × Parser σ}
    (first : out.1 ≠ .error (.lexical cause))
    (second : ∀ a p, (next a p).1 ≠ .error (.lexical cause)) :
    (andThen out next).1 ≠ .error (.lexical cause) := by
  rcases out with ⟨e | a, p⟩
  · intro failed
    cases failed
    exact first rfl
  · exact second a p

private theorem child_plain (plain : Plain read) (m : Matcher) (p : Parser σ) :
    (child read m p).1 ≠ .error (.lexical cause) := by
  unfold child
  dsimp only
  split
  · rintro ⟨⟩
  · split
    · rintro ⟨⟩
    · exact map_plain (plain _ _ _ _)

private theorem fill_plain (plain : Plain read) (m : Matcher) (span : Span) (p : Parser σ) :
    (fill read m span p).1 ≠ .error (.lexical cause) := by
  fun_induction fill read m span p with
  | case2 m span p _ e m' p' found =>
    intro failed
    cases failed
    exact child_plain plain m p (congrArg Prod.fst found)
  | case4 _ _ _ _ _ _ _ _ _ _ _ ih => exact ih
  | case1 | case3 | case5 | case6 => rintro ⟨⟩

private theorem open_plain (plain : Plain read) (rule : Rule) (callee? : Option Tree)
    (p : Parser σ) : (open_ read rule callee? p).1 ≠ .error (.lexical cause) := by
  unfold open_
  dsimp only
  split
  · next callee =>
    refine map_plain ?_
    cases begun : seed (.ofRule rule) ⟨callee, (p.previous?.map (·.span)).getD p.current.span⟩ with
    | error e =>
      intro failed
      cases failed
      exact seed_plain _ _ begun
    | ok m => exact seed_plain m _
  · split
    · split
      · rintro ⟨⟩
      · split
        · next first opens e q same =>
          intro failed
          cases failed
          exact plain _ _ _ _ (congrArg Prod.fst same)
        · exact map_plain (seed_plain _ _)
    · exact map_plain (seed_plain _ _)

private theorem reader_plain (room : Nat) : Plain (reader room : Reader σ) := by
  induction room with
  | zero => rintro _ _ _ _ ⟨⟩
  | succ room ih =>
    intro rule callee? p cause
    change (build (reader room) rule callee? p).1 ≠ .error (.lexical cause)
    rw [build_eq]
    refine andThen_plain (open_plain ih rule callee? p) fun opened p => ?_
    refine andThen_plain (fill_plain ih opened.1 opened.2 p) fun filled p => ?_
    unfold complete
    split <;> rintro ⟨⟩

private theorem closing_plain (tree? : Option (Located Tree)) (p : Parser σ) :
    (closing tree? p).1 ≠ .error (.lexical cause) := by
  unfold closing
  split
  · rintro ⟨⟩
  · rintro ⟨⟩
  · split <;> rintro ⟨⟩

private theorem outermostBy_plain (plain : Plain read) (p : Parser σ) :
    (outermostBy read p).1 ≠ .error (.lexical cause) := by
  unfold outermostBy
  split
  · rintro ⟨⟩
  · split
    · rintro ⟨⟩
    · exact map_plain (plain _ _ _ _)

/-- A scanner that fails does not come to the end of its text. -/
private theorem not_ended_of_failing {e : LexicalError} {p : Parser Scanner}
    (alike : (Pairing.failing e).Alike p p) (sound : p.advance.failure? = none) :
    p.advance.current.value.isEnd = false := by
  cases held : p.pushedBack? with
  | some token =>
    rw [advance_of_pushedBack held]
    exact alike.tidy token held
  | none =>
    obtain ⟨before, drawn⟩ := next_of_advance held sound
    have fails : p.supply.Fails e := by
      have same := alike.supply.2
      rw [before] at same
      exact same
    have drawn : p.supply.next = _ := drawn
    cases fails with
    | now read => cases read.symm.trans drawn
    | later read inside _ =>
      cases read.symm.trans drawn
      exact inside

private theorem parseClass_of_failing {e : LexicalError} {p : Parser Scanner}
    (alike : (Pairing.failing e).Alike p p) :
    ∃ e', p.parseClass.1 = .error e' ∧ ∀ cause, e' = .lexical cause → cause = e := by
  have agrees := (Pairing.failing e).reader_agrees Limits.parseDepth
  have limit : p.limit = Limits.parseDepth := alike.limits.1
  rw [parseClass_eq, limit, classBy]
  obtain ⟨-, between⟩ := (Pairing.outermostBy_follows agrees alike).alike rfl
  obtain ⟨-, after⟩ := (Pairing.andThen_closing_follows agrees alike).alike rfl
  rw [finish]
  split
  · next e' failed =>
    refine ⟨_, rfl, fun cause same => ?_⟩
    obtain rfl := SyntaxError.lexical.inj same
    have supply := after.supply.2
    rw [failed] at supply
    exact supply
  · next sound =>
    have plain : ∀ cause, (andThen (outermostBy (reader Limits.parseDepth) p) closing).1 ≠
        .error (.lexical cause) :=
      fun cause => andThen_plain (outermostBy_plain (reader_plain _) p) closing_plain
    cases reported : (andThen (outermostBy (reader Limits.parseDepth) p) closing).1 with
    | error e' =>
      refine ⟨e', rfl, ?_⟩
      rintro cause rfl
      exact absurd reported (plain cause)
    | ok tree =>
      obtain ⟨tree?, _, same⟩ := ok_of_andThen reported
      rw [same] at reported sound
      obtain ⟨_, later, ended⟩ := of_closing reported
      rw [later] at sound
      rw [not_ended_of_failing between sound] at ended
      cases ended

end Parser

theorem parseText_of_streamed {text : List Char} {stream : TokenStream}
    {tokens : List (Located Token)} {last : Located Token}
    (leads : (Scanner.ofText text).Leads tokens last) (holds : stream.Holds tokens last) :
    (parseText text).1 = (parseStream stream).1 := by
  have alike : Pairing.streamed.Alike (Parser.ofSupply (Scanner.ofText text) Limits.parseDepth)
      (Parser.ofSupply stream Limits.parseDepth) :=
    ⟨rfl, rfl, rfl, rfl, ⟨rfl, rfl⟩, ⟨rfl, tokens, last, leads, holds⟩, nofun, nofun⟩
  rcases Pairing.parseClass_agrees alike with same | ⟨more, _⟩
  · exact same
  · cases more

theorem parseText_of_fails {text : List Char} {e : LexicalError}
    (fails : (Scanner.ofText text).Fails e) :
    ∃ e', (parseText text).1 = .error e' ∧ ∀ cause, e' = .lexical cause → cause = e :=
  Parser.parseClass_of_failing (p := Parser.ofSupply (Scanner.ofText text) Limits.parseDepth)
    ⟨rfl, rfl, rfl, rfl, ⟨rfl, rfl⟩, ⟨rfl, fails⟩, nofun, nofun⟩

/-- What a text is scanned to holds what its scanner leads to, or the scanner fails. -/
theorem tokenize_cases (preferences : ScanPreferences) (text : List Char) :
    (∃ stream tokens last, (tokenize preferences text).result = .ok stream ∧
      (Scanner.ofText text).Leads tokens last ∧ stream.Holds tokens last) ∨
    ∃ e, (tokenize preferences text).result = .error e ∧ (Scanner.ofText text).Fails e := by
  unfold tokenize
  dsimp only
  split
  · next e failed => exact .inr ⟨e, rfl, Scanner.fails_of_drain failed⟩
  · next last ended =>
    obtain ⟨tokens, drained, leads⟩ := Scanner.leads_of_drain ended
    refine .inl ⟨_, tokens, last, rfl, leads, ?_⟩
    rw [TokenStream.ofTokens, Array.back?_push]
    simp [TokenStream.Holds, leads.ends, drained]

/-- A text that is scanned to a stream is parsed as the stream is, with the same tree or the same
error. A text that cannot be scanned cannot be parsed, and if a failure to scan is reported, it is
the one that stopped the scanner. -/
theorem parseText_agrees (preferences : ScanPreferences) (text : List Char) :
    (∀ stream, (tokenize preferences text).result = .ok stream →
      (parseText text).1 = (parseStream stream).1) ∧
    (∀ e, (tokenize preferences text).result = .error e →
      (∃ e', (parseText text).1 = .error e') ∧
        ∀ cause, (parseText text).1 = .error (.lexical cause) → cause = e) ∧
    ∀ tree, (parseText text).1 = .ok tree ↔ ∃ stream,
      (tokenize preferences text).result = .ok stream ∧ (parseStream stream).1 = .ok tree := by
  rcases tokenize_cases preferences text with
    ⟨stream, tokens, last, scanned, leads, holds⟩ | ⟨e, failed, fails⟩
  · have same := parseText_of_streamed leads holds
    refine ⟨?_, ?_, ?_⟩
    · intro stream' scanned'
      cases scanned.symm.trans scanned'
      exact same
    · intro e failed
      cases scanned.symm.trans failed
    · intro tree
      constructor
      · intro parsed
        exact ⟨stream, scanned, same ▸ parsed⟩
      · rintro ⟨stream', scanned', parsed⟩
        cases scanned.symm.trans scanned'
        rw [same, parsed]
  · obtain ⟨e', refused, lexical⟩ := parseText_of_fails fails
    refine ⟨?_, ?_, ?_⟩
    · intro stream scanned
      cases failed.symm.trans scanned
    · intro e₁ failed'
      cases failed.symm.trans failed'
      refine ⟨⟨e', refused⟩, fun cause reported => lexical cause ?_⟩
      exact Except.error.inj (refused.symm.trans reported)
    · intro tree
      constructor
      · intro parsed
        cases refused.symm.trans parsed
      · rintro ⟨stream, scanned, _⟩
        cases failed.symm.trans scanned

/-- Parsing stops at what is missing, or at what cannot be scanned. -/
theorem parseText_agrees_of_errors :
    (∃ stream, (tokenize ⟨true, true⟩ "class A { field int }".toList).result = .ok stream ∧
      (parseText "class A { field int }".toList).1 = (parseStream stream).1) ∧
    ∃ e, (tokenize ⟨true, true⟩ "class A { # }".toList).result = .error e ∧
      (parseText "class A { # }".toList).1 = .error (.lexical e) := by
  have scans : (tokenize ⟨true, true⟩ "class A { field int }".toList).result.toOption.isSome := by
    decide +kernel
  have fails : (match (tokenize ⟨true, true⟩ "class A { # }".toList).result,
      (parseText "class A { # }".toList).1 with
      | .error _, .error (.lexical _) => true
      | _, _ => false) = true := by
    decide +kernel
  constructor
  · obtain ⟨stream, found⟩ := Option.isSome_iff_exists.mp scans
    have scanned := Except.ok_of_toOption found
    exact ⟨stream, scanned, (parseText_agrees _ _).1 stream scanned⟩
  · split at fails
    · next e cause failed reported =>
      refine ⟨e, failed, ?_⟩
      rw [reported, ((parseText_agrees _ _).2.1 e failed).2 cause reported]
    · cases fails

end NandTools
