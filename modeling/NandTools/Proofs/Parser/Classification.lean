import NandTools.Parser.Report
import NandTools.Proofs.Matcher.Progress
import NandTools.Proofs.Parser.Completeness
import NandTools.Proofs.Parser.Conservation
import NandTools.Proofs.Parser.Limit
import NandTools.Proofs.Parser.Opening

/-! Which error is met when tokens are read as a class: nothing to read, something else than a class,
something inside the class, or something behind it. -/
namespace NandTools

open NandTools.Source

namespace Posture

/-- A class that is complete has been closed, and it is a token that has closed it. -/
private def closedByToken (rule : Rule) (q : Posture) : Bool :=
  rule != .class_ ||
    (!q.isComplete rule || q.closed) && (Prospect.relevant rule).all fun
      | .kind _ => true
      | .rule r => (q.step rule (.rule r)).all fun q' => !q'.closed

private theorem all_closedByToken : Rule.all.all (fun rule =>
    sweep (next rule) (closedByToken rule) 1000 [] [start rule]) = true := by
  decide +kernel

end Posture

namespace Matcher

variable {m m' : Matcher} {word : List Symbol}

private theorem Reads.closedByToken (read : m.Reads word) (inClass : m.rule = .class_) :
    (m.isComplete = true → m.closed = true) ∧
      ∀ tree m', m.offer? tree = some m' → m'.closed = true → ∃ token, tree = .leaf token := by
  have good := read.of_search Posture.all_closedByToken
  rw [Posture.closedByToken, ← isComplete_posture read.regular, inClass] at good
  simp only [bne_self_eq_false, Bool.false_or, Bool.and_eq_true, Bool.or_eq_true,
    Bool.not_eq_true', List.all_eq_true] at good
  obtain ⟨ended, steps⟩ := good
  constructor
  · intro complete
    rw [complete] at ended
    exact ended.resolve_left (by simp)
  · intro tree m' taken closed
    cases tree with
    | leaf token => exact ⟨token, rfl⟩
    | branch rule children mark =>
      have relevant := mem_relevant_of_offer read taken
      have stepped := step_of_offer read taken
      rw [inClass] at relevant stepped
      have unclosed : (m.posture.step .class_ (.rule rule)).all (fun q => !q.closed) = true :=
        steps _ relevant
      have stepped : m.posture.step .class_ (.rule rule) = some m'.posture := stepped
      have closed : m'.posture.closed = true := closed
      rw [stepped, Option.all_some, closed] at unclosed
      cases unclosed

end Matcher

/-- A stream beside itself. -/
private def Pairing.alone (limit : Nat) : Pairing TokenStream TokenStream where
  same failure? s t := failure? = none ∧ s = t
  limit
  slack := 0
  inStep := by
    rintro s _ ⟨-, rfl⟩
    exact ⟨rfl, rfl, rfl⟩

namespace Parser

section fresh

variable {σ : Type} [TokenSupply σ] {read : Reader σ} {m m' : Matcher} {word : List Symbol}
  {p p' : Parser σ}

theorem pushedBack_advance (p : Parser σ) : p.advance.pushedBack? = none := by
  have held := p.held_advance
  simpa [Parser.held] using held

/-- Only a term has a child taken away from it. -/
theorem matcher_of_child {tree? : Except SyntaxError (Option (Located Tree))}
    (notTerm : m.rule ≠ .term) (found : child read m p = (tree?, m', p')) : m' = m := by
  cases finds_of_child found with
  | ended | token => rfl
  | production | failed => rw [handOver, if_neg fun both => notTerm both.2]

/-- No token is held back behind a class, which ends with a token of its own. -/
theorem fresh_of_fill (named : Named read) (sound : Sound read) (filling : m.Filling word)
    (inClass : m.rule = .class_) (unclosed : m.closed = false) {span span' : Span}
    (filled : fill read m span p = (.ok (m', span'), p')) (complete : m'.isComplete = true) :
    p'.pushedBack? = none := by
  have ended := (filling.filled.read.closedByToken inClass).1
  fun_induction fill read m span p generalizing word with
  | case1 m span p closed =>
    rw [unclosed] at closed
    cases closed
  | case3 m span p _ m' p' found =>
    cases filled
    obtain rfl := kept_of_child named found (by simp)
    cases unclosed.symm.trans (ended complete)
  | case5 m span p _ m' p' tree found _ refused token leaf =>
    cases filled
    obtain rfl := kept_of_child named found (by rintro _ ⟨⟩; rw [leaf]; rfl)
    cases unclosed.symm.trans (ended complete)
  | case4 m span p _ m₁ q tree found _ m₂ taken ih =>
    obtain rfl := matcher_of_child (by simp [inClass]) found
    have next := filling_of_child named sound filling unclosed found taken
    have inClass₂ := (Matcher.offer_eq_some taken).1.trans inClass
    cases closed : m₂.closed with
    | false => exact ih next inClass₂ closed filled (next.filled.read.closedByToken inClass₂).1
    | true =>
      rw [fill_closed closed] at filled
      cases filled
      obtain ⟨token, leaf⟩ :=
        (filling.filled.read.closedByToken inClass).2 _ _ taken closed
      obtain ⟨-, rfl, -⟩ := advance_of_child_leaf named found leaf
      exact pushedBack_advance p
  | case2 | case6 => cases filled

private theorem unclosed_of_opener {token : Token} (first : token.kind = .keyword .class_)
    (taken : (Matcher.ofRule .class_).offer? (.leaf token) = some m) : m.closed = false := by
  have unclosed : ((Posture.start .class_).step .class_ (.kind (.keyword .class_))).map (·.closed) =
      some false := by
    decide +kernel
  have stepped := Matcher.offer_posture (Matcher.regular_ofRule .class_) (.leaf token)
  rw [taken, Tree.symbol, first] at stepped
  have stepped : some m.posture = (Posture.start .class_).step .class_ _ := stepped
  rw [← stepped] at unclosed
  exact Option.some.inj unclosed

/-- No token is held back behind a class that has been read. -/
theorem fresh_of_class {room : Nat} {tree : Located Tree} (begun : Begun .class_ none p)
    (built : (reader room .class_ none p).val = (.ok tree, p')) : p'.pushedBack? = none := by
  cases room with
  | zero => cases built
  | succ room =>
    have simple : ¬ (Rule.class_ = .expression ∨ Rule.class_ = .expressionList) := by simp
    obtain ⟨m, taken⟩ := Matcher.exists_offer_opener simple begun
    have opened : open_ (reader room) .class_ none p = (.ok (m, p.current.span), p) :=
      open_of_leaf simple rfl taken
    obtain ⟨_, _, _, m', q, opened', filled, complete, -, rfl⟩ := exists_filled built
    cases opened.symm.trans opened'
    have filling := Matcher.Filling.first taken rfl (.leaf _)
    have inClass := (Matcher.offer_eq_some taken).1
    have unclosed := unclosed_of_opener (List.mem_singleton.mp begun) taken
    have fresh : q.pushedBack? = none :=
      fresh_of_fill (reader_named room) (reader_sound room) filling inClass unclosed filled complete
    exact fresh

end fresh

section stream

variable {p p' : Parser TokenStream} {tokens rest : List (Located Token)} {first last : Located Token}

/-- The parser has these tokens in its stream, and no other token at hand. -/
structure Facing (p : Parser TokenStream) (tokens : List (Located Token)) (last : Located Token) :
    Prop where
  sound : p.failure? = none
  fresh : p.pushedBack? = none
  holds : p.supply.Holds tokens last
  inside : ∀ token ∈ tokens, token.value.isEnd = false
  ended : last.value.isEnd = true

theorem Facing.awaits (facing : p.Facing tokens last) : p.Awaits (tokens.map (·.value)) := by
  refine ⟨facing.sound, ?_⟩
  rw [facing.fresh]
  exact facing.holds.yields facing.inside facing.ended

theorem Facing.advance_nil (facing : p.Facing [] last) :
    p.advance.current = last ∧ p.advance.failure? = none := by
  have drawn : TokenSupply.next p.supply = (.ok last, p.supply) := by
    simp only [TokenSupply.next, TokenStream.next_of_last facing.holds facing.ended]
  rw [advance_of_drawn facing.sound facing.fresh drawn]
  exact ⟨rfl, facing.sound⟩

theorem Facing.advance_cons (facing : p.Facing (first :: rest) last) :
    p.advance.current = first ∧ p.advance.Facing rest last := by
  obtain ⟨next, holds⟩ :=
    TokenStream.next_of_more facing.holds (facing.inside first List.mem_cons_self)
  have drawn : TokenSupply.next p.supply =
      (.ok first, { p.supply with cursor := p.supply.cursor + 1 }) := by
    simp only [TokenSupply.next, next]
  rw [advance_of_drawn facing.sound facing.fresh drawn]
  exact ⟨rfl, facing.sound, facing.fresh, holds,
    fun token member => facing.inside token (List.mem_cons_of_mem first member), facing.ended⟩

/-- A stream does not fail. -/
theorem Facing.sound_of_reader (facing : p.Facing tokens last)
    (inside : p.current.value.isEnd = false) (room : Nat) (rule : Rule) (callee? : Option Tree) :
    (reader room rule callee? p).val.2.failure? = none := by
  have alike : (Pairing.alone p.limit).Alike p p := by
    refine ⟨rfl, rfl, rfl, rfl, ⟨rfl, rfl⟩, ⟨facing.sound, rfl⟩, ?_, ?_⟩
    · intro token back
      cases facing.fresh.symm.trans back
    · intro e failed
      cases facing.sound.symm.trans failed
  have follows := (Pairing.alone p.limit).reader_agrees room rule callee? p p alike inside
    fun more => absurd more (Nat.lt_irrefl 0)
  exact (follows.alike rfl).2.supply.1

/-- Behind a class there are the tokens that it has not used up. -/
theorem Facing.of_class (facing : p.Facing rest last) {room : Nat} {tree : Located Tree}
    (begun : Begun .class_ none p) (inside : p.current.value.isEnd = false)
    (built : (reader room .class_ none p).val = (.ok tree, p')) :
    ∃ front behind, rest = front ++ behind ∧
      tree.value.tokens = p.current.value :: front.map (·.value) ∧ p'.Facing behind last := by
  have sound := facing.sound_of_reader inside room .class_ none
  rw [built] at sound
  have fresh := fresh_of_class begun built
  have unheld : p.held = [] := by rw [held, facing.fresh]; rfl
  have unheld' : p'.held = [] := by rw [held, fresh]; rfl
  obtain ⟨used, uses, spelled⟩ := reader_conserves room .class_ none p tree p' built
  obtain ⟨_, moves⟩ := uses sound
  obtain ⟨_, drawn, draws, balance⟩ := moves (by simp [Tidy, unheld])
  rw [unheld, unheld', List.nil_append, List.append_nil] at balance
  subst balance
  obtain ⟨front, behind, rfl, rfl, holds⟩ :=
    facing.holds.draws facing.inside facing.ended draws
  exact ⟨front, behind, rfl, spelled.symm, sound, fresh, holds,
    fun token member => facing.inside token (List.mem_append_right front member), facing.ended⟩

theorem finish_of_sound {α : Type} {out : Except SyntaxError α × Parser TokenStream}
    (sound : out.2.failure? = none) : finish out = out := by
  rw [finish, sound]

theorem Facing.parseClass_of_nil (facing : p.Facing [] last) : p.parseClass.1 = .error .emptyInput := by
  obtain ⟨current, sound⟩ := facing.advance_nil
  have out : outermostBy (reader p.limit) p = (.ok none, p.advance) := by
    rw [outermostBy, current, if_pos facing.ended]
  rw [parseClass_eq, classBy, out, andThen, closing, finish_of_sound sound]

theorem Facing.parseClass_of_stray (facing : p.Facing (first :: rest) last)
    (stray : first.value.kind ≠ .keyword .class_) :
    p.parseClass.1 = .error
      (.unexpectedToken (.field (.token (.keyword .class_))) first.value first.span) := by
  obtain ⟨current, after⟩ := facing.advance_cons
  have inside := facing.inside first List.mem_cons_self
  have plain : Rule.opened? none .initial first.value.kind = none := by
    rw [Rule.opened?, if_neg stray]
  have out : outermostBy (reader p.limit) p = (.ok (some (first.map .leaf)), p.advance) := by
    rw [outermostBy, current, inside, plain]
    rfl
  rw [parseClass_eq, classBy, out, andThen, finish_of_sound after.sound]
  rfl

/-- A class that the tolerated grammar derives, with these tokens, for which there is room. -/
structure Spells (limit : Nat) (tree : Tree) (tokens : List Token) : Prop where
  isClass : tree.isRule .class_ = true
  derived : tree.Derivation Rule.tolerated
  shallow : tree.height ≤ limit
  spelled : tree.tokens = tokens

theorem Spells.ne_nil {limit : Nat} {tree : Tree} {tokens : List Token}
    (spells : Spells limit tree tokens) : tokens ≠ [] := by
  obtain ⟨token, rest, begins, _⟩ := spells.derived.exists_first
  rw [← spells.spelled, begins]
  exact List.cons_ne_nil token rest

theorem Spells.of_built {room : Nat} {located : Located Tree} (begun : Begun .class_ none p)
    (built : (reader room .class_ none p).val = (.ok located, p')) :
    Spells room located.value located.value.tokens where
  isClass := by
    rw [Tree.isRule, reader_named _ _ _ _ _ (congrArg Prod.fst built)]
    rfl
  derived := (reader_sound _ _ _ _ _ begun.asked (congrArg Prod.fst built)).derivation
  shallow := reader_shallow _ _ _ _ _ begun.asked nofun (congrArg Prod.fst built)
  spelled := rfl

/-- A class is read by the token that opens it. -/
theorem Facing.outermostBy_of_class (facing : p.Facing (first :: rest) last)
    (opening : first.value.kind = .keyword .class_) :
    outermostBy (reader p.limit) p =
      ((reader p.limit .class_ none p.advance).val.1.map some,
        (reader p.limit .class_ none p.advance).val.2) := by
  obtain ⟨current, _⟩ := facing.advance_cons
  have inside := facing.inside first List.mem_cons_self
  have opened : Rule.opened? none .initial first.value.kind = some .class_ := by
    rw [Rule.opened?, if_pos opening]
  rw [outermostBy, current, inside, opened]
  rfl

/-- Behind a class there is the end of the input, or the token that is left over. -/
theorem Facing.finish_closing {behind : List (Located Token)} (facing : p.Facing behind last)
    {located : Located Tree} {rule : Rule} (named : located.value.rule? = some rule) :
    (finish (closing (some located) p)).1 = behind.head?.elim (.ok located.value) fun next =>
      .error (.trailingInput next.value next.span) := by
  rcases located with ⟨_ | ⟨rule, children, closed⟩, span⟩
  · cases named
  · simp only [closing]
    cases behind with
    | nil =>
      obtain ⟨current, sound⟩ := facing.advance_nil
      rw [current, if_pos facing.ended, finish_of_sound sound]
      rfl
    | cons next others =>
      obtain ⟨current, later⟩ := facing.advance_cons
      have more := facing.inside next List.mem_cons_self
      rw [current, if_neg (by simp [more]), finish_of_sound later.sound]
      rfl

/-- A class either fails inside or is followed by what it has not used up. -/
theorem Facing.parseClass_of_class (facing : p.Facing (first :: rest) last)
    (opening : first.value.kind = .keyword .class_) :
    (∃ e, (reader p.limit .class_ none p.advance).val.1 = .error e ∧ e.isInner = true ∧
      p.parseClass.1 = .error e) ∨
    ∃ tree p' front behind, (reader p.limit .class_ none p.advance).val = (.ok tree, p') ∧
      rest = front ++ behind ∧ Spells p.limit tree.value ((first :: front).map (·.value)) ∧
      p'.Facing behind last ∧
      p.parseClass.1 = behind.head?.elim (.ok tree.value) fun next =>
        .error (.trailingInput next.value next.span) := by
  obtain ⟨current, after⟩ := facing.advance_cons
  have inside : p.advance.current.value.isEnd = false := by
    rw [current]
    exact facing.inside first List.mem_cons_self
  have begun : Begun .class_ none p.advance := by
    rw [Begun, current]
    exact List.mem_singleton.mpr opening
  have sound := after.sound_of_reader inside p.limit .class_ none
  rw [parseClass_eq, classBy, facing.outermostBy_of_class opening]
  rcases built : (reader p.limit .class_ none p.advance).val with ⟨e | tree, p'⟩
  · have sound : p'.failure? = none := by
      rw [built] at sound
      exact sound
    refine .inl ⟨e, rfl, reader_contained _ _ _ _ e begun (congrArg Prod.fst built), ?_⟩
    exact congrArg Prod.fst (finish_of_sound sound)
  · obtain ⟨front, behind, rfl, spelled, left⟩ := after.of_class begun inside built
    have spells := Spells.of_built begun built
    rw [spelled, current] at spells
    refine .inr ⟨tree, p', front, behind, rfl, rfl, spells, left, ?_⟩
    exact left.finish_closing (reader_named _ _ _ _ _ (congrArg Prod.fst built))

/-- What a class that is read begins with, and what is read of it first. -/
theorem Spells.exists_built {tree : Tree} {front : List (Located Token)}
    (spells : Spells p.limit tree (front.map (·.value)))
    (facing : p.Facing (front ++ rest) last) :
    ∃ first others located p', front = first :: others ∧ first.value.kind = .keyword .class_ ∧
      (reader p.limit .class_ none p.advance).val = (.ok located, p') ∧
      p'.Awaits (rest.map (·.value)) := by
  obtain ⟨isClass, derived, shallow, spelled⟩ := spells
  obtain ⟨token, more, begins, opening⟩ := derived.exists_first
  rw [begins] at spelled
  obtain ⟨first, others, rfl, rfl, rfl⟩ := List.map_eq_cons_iff.mp spelled.symm
  cases tree with
  | leaf token => cases isClass
  | branch rule children closed =>
    obtain rfl : rule = .class_ := by simpa [Tree.isRule, Tree.rule?] using isClass
    rw [Tree.tokens_branch] at begins
    have stopped : Stopped .class_ (rest.map (·.value)) := fun _ _ => rfl
    obtain ⟨current, after⟩ := facing.advance_cons
    have ahead : p.advance.Awaits (others.map (·.value) ++ rest.map (·.value)) := by
      rw [← List.map_append]
      exact after.awaits
    obtain ⟨located, p', built, _, left⟩ := (reader_completes p.limit).whole derived shallow begins
      stopped (by rw [current]) ahead
    exact ⟨first, others, located, p', rfl, List.mem_singleton.mp opening, built, left⟩

/-- What is left behind a class is the same however it is read. -/
theorem eq_of_awaits {front front' behind behind' : List (Located Token)}
    (same : front ++ behind = front' ++ behind') (facing : p.Facing behind last)
    (awaits : p.Awaits (behind'.map (·.value))) : front = front' ∧ behind = behind' := by
  have yields : Yields p.supply (behind'.map (·.value)) := by
    have ahead := awaits.2
    rw [facing.fresh] at ahead
    exact ahead
  have equal := (facing.holds.yields facing.inside facing.ended).unique yields
  refine List.append_inj' same ?_
  rw [← List.length_map, equal, List.length_map]

/-- What comes of tokens that are read as a class, by what they begin with. -/
theorem Facing.parseClass_cases (facing : p.Facing tokens last) :
    (tokens = [] ∧ p.parseClass.1 = .error .emptyInput) ∨
    (∃ first rest, tokens = first :: rest ∧ first.value.kind ≠ .keyword .class_ ∧
      p.parseClass.1 = .error
        (.unexpectedToken (.field (.token (.keyword .class_))) first.value first.span)) ∨
    (∃ first rest, tokens = first :: rest ∧ first.value.kind = .keyword .class_ ∧
      ((∃ e, e.isInner = true ∧ p.parseClass.1 = .error e) ∨
        ∃ tree front behind, rest = front ++ behind ∧
          Spells p.limit tree ((first :: front).map (·.value)) ∧
          p.parseClass.1 = behind.head?.elim (.ok tree) fun next =>
            .error (.trailingInput next.value next.span))) := by
  cases tokens with
  | nil => exact .inl ⟨rfl, facing.parseClass_of_nil⟩
  | cons first rest =>
    by_cases opening : first.value.kind = .keyword .class_
    · refine .inr (.inr ⟨first, rest, rfl, opening, ?_⟩)
      rcases facing.parseClass_of_class opening with
        ⟨e, _, inner, failed⟩ | ⟨located, _, front, behind, _, split, spells, _, outcome⟩
      · exact .inl ⟨e, inner, failed⟩
      · exact .inr ⟨located.value, front, behind, split, spells, outcome⟩
    · exact .inr (.inl ⟨first, rest, rfl, opening, facing.parseClass_of_stray opening⟩)

theorem Facing.empty_iff (facing : p.Facing tokens last) :
    p.parseClass.1 = .error .emptyInput ↔ tokens = [] := by
  constructor
  · intro empty
    rcases facing.parseClass_cases with ⟨none, _⟩ | ⟨_, _, _, _, stray⟩ |
      ⟨_, _, _, _, ⟨e, inner, failed⟩ | ⟨_, _, behind, _, _, outcome⟩⟩
    · exact none
    · cases stray.symm.trans empty
    · cases failed.symm.trans empty
      cases inner
    · cases behind <;> cases outcome.symm.trans empty
  · rintro rfl
    exact facing.parseClass_of_nil

theorem Facing.unexpected_iff (facing : p.Facing tokens last) :
    (∃ expected found span, p.parseClass.1 = .error (.unexpectedToken expected found span)) ↔
      ∃ first rest, tokens = first :: rest ∧ first.value.kind ≠ .keyword .class_ := by
  constructor
  · rintro ⟨expected, found, span, unexpected⟩
    rcases facing.parseClass_cases with ⟨_, empty⟩ | ⟨first, rest, begins, stray, _⟩ |
      ⟨_, _, _, _, ⟨e, inner, failed⟩ | ⟨_, _, behind, _, _, outcome⟩⟩
    · cases empty.symm.trans unexpected
    · exact ⟨first, rest, begins, stray⟩
    · cases failed.symm.trans unexpected
      cases inner
    · cases behind <;> cases outcome.symm.trans unexpected
  · rintro ⟨first, rest, rfl, stray⟩
    exact ⟨_, _, _, facing.parseClass_of_stray stray⟩

/-- Tokens are accepted just where they spell a class. -/
theorem Facing.accepts_iff (facing : p.Facing tokens last) :
    (∃ tree, p.parseClass.1 = .ok tree) ↔ ∃ tree, Spells p.limit tree (tokens.map (·.value)) := by
  constructor
  · rintro ⟨tree, parsed⟩
    rcases facing.parseClass_cases with ⟨_, empty⟩ | ⟨_, _, _, _, stray⟩ |
      ⟨first, _, rfl, _, ⟨e, _, failed⟩ | ⟨located, front, behind, rfl, spells, outcome⟩⟩
    · cases empty.symm.trans parsed
    · cases stray.symm.trans parsed
    · cases failed.symm.trans parsed
    · cases behind with
      | nil => exact ⟨located, by rwa [List.append_nil]⟩
      | cons next others => cases outcome.symm.trans parsed
  · rintro ⟨tree, isClass, derived, shallow, spelled⟩
    have awaits := facing.awaits
    rw [← spelled] at awaits
    obtain ⟨parsed, read, _⟩ := parseClass_delivers derived isClass shallow awaits
    exact ⟨parsed, read⟩

/-- Something is left behind a class just where the tokens in front of it spell one. -/
theorem Facing.trailing_iff (facing : p.Facing tokens last) {found : Token} {span : Span} :
    p.parseClass.1 = .error (.trailingInput found span) ↔
      ∃ front next rest tree, tokens = front ++ next :: rest ∧
        Spells p.limit tree (front.map (·.value)) ∧ found = next.value ∧ span = next.span := by
  constructor
  · intro trailing
    rcases facing.parseClass_cases with ⟨_, empty⟩ | ⟨_, _, _, _, stray⟩ |
      ⟨first, _, rfl, _, ⟨e, inner, failed⟩ | ⟨tree, front, behind, rfl, spells, outcome⟩⟩
    · cases empty.symm.trans trailing
    · cases stray.symm.trans trailing
    · cases failed.symm.trans trailing
      cases inner
    · cases behind with
      | nil => cases outcome.symm.trans trailing
      | cons next others =>
        cases outcome.symm.trans trailing
        exact ⟨first :: front, next, others, tree, rfl, spells, rfl, rfl⟩
  · rintro ⟨front, next, rest, tree, rfl, spells, rfl, rfl⟩
    obtain ⟨first, others, located, p', rfl, opening, built, awaits⟩ := spells.exists_built facing
    rcases facing.parseClass_of_class opening with
      ⟨e, failed, _⟩ | ⟨_, _, _, behind, built', same, _, left, outcome⟩
    · rw [built] at failed
      cases failed
    · cases built.symm.trans built'
      obtain ⟨-, rfl⟩ := eq_of_awaits same.symm left awaits
      exact outcome

end stream

end Parser

/-- Which error is met tells what the tokens begin with: none at all; something else than a class; a
class, and behind it a token that is left over. -/
theorem parseStream_classified {tokens : Array (Located Token)} {body : List (Located Token)}
    (inside : ∀ token ∈ body, token.value.isEnd = false)
    (stored : tokens.toList = body ∨
      ∃ last : Located Token, last.value.isEnd = true ∧ tokens.toList = body ++ [last])
    (index? : Option LineIndex) :
    ((parseStream (.ofTokens tokens index?)).1 = .error .emptyInput ↔ body = []) ∧
    ((∃ expected found span, (parseStream (.ofTokens tokens index?)).1 =
        .error (.unexpectedToken expected found span)) ↔
      ∃ first rest, body = first :: rest ∧ first.value.kind ≠ .keyword .class_) ∧
    ((∃ found span, (parseStream (.ofTokens tokens index?)).1 =
        .error (.trailingInput found span)) ↔
      ∃ front next rest tree, front ≠ [] ∧ body = front ++ next :: rest ∧
        (parseStream (.ofTokens front.toArray index?)).1 = .ok tree) ∧
    ∀ front next rest tree, body = front ++ next :: rest →
      (parseStream (.ofTokens front.toArray index?)).1 = .ok tree →
      (parseStream (.ofTokens tokens index?)).1 = .error (.trailingInput next.value next.span) := by
  have facing : ∀ tokens {body}, (∀ token ∈ body, token.value.isEnd = false) →
      (tokens.toList = body ∨
        ∃ last : Located Token, last.value.isEnd = true ∧ tokens.toList = body ++ [last]) →
      ∃ last, (Parser.ofSupply (TokenStream.ofTokens tokens index?) Limits.parseDepth).Facing
        body last := by
    intro tokens body inside stored
    obtain ⟨last, closing, holds⟩ := TokenStream.holds_ofTokens inside stored index?
    exact ⟨last, rfl, rfl, holds, inside, closing⟩
  obtain ⟨last, whole⟩ := facing tokens inside stored
  -- The parser of a front spells what the parser of all tokens may have in front of it.
  have accepted : ∀ front next rest, body = front ++ next :: rest →
      ((∃ tree, (parseStream (.ofTokens front.toArray index?)).1 = .ok tree) ↔
        ∃ tree, Parser.Spells Limits.parseDepth tree (front.map (·.value))) := by
    rintro front next rest rfl
    obtain ⟨_, facing⟩ := facing front.toArray
      (fun token member => inside token (List.mem_append_left _ member)) (.inl rfl)
    exact facing.accepts_iff
  refine ⟨whole.empty_iff, whole.unexpected_iff, ?_, ?_⟩
  · constructor
    · rintro ⟨found, span, trailing⟩
      obtain ⟨front, next, rest, tree, split, spells, -, -⟩ := whole.trailing_iff.mp trailing
      obtain ⟨tree, parsed⟩ := (accepted front next rest split).mpr ⟨tree, spells⟩
      exact ⟨front, next, rest, tree, fun none => spells.ne_nil (none ▸ rfl), split, parsed⟩
    · rintro ⟨front, next, rest, tree, _, split, parsed⟩
      obtain ⟨tree, spells⟩ := (accepted front next rest split).mp ⟨tree, parsed⟩
      exact ⟨_, _, whole.trailing_iff.mpr ⟨front, next, rest, tree, split, spells, rfl, rfl⟩⟩
  · intro front next rest tree split parsed
    obtain ⟨tree, spells⟩ := (accepted front next rest split).mp ⟨tree, parsed⟩
    exact whole.trailing_iff.mpr ⟨front, next, rest, tree, split, spells, rfl, rfl⟩

private def emptyClass : List (Located Token) :=
  [.fixed (.keyword .class_), ⟨.identifier, "A"⟩, .fixed (.sign .lbrace),
    .fixed (.sign .rbrace)].map fun token => ⟨token, .dummy⟩

private def semicolon : Located Token := ⟨.fixed (.sign .semicolon), .dummy⟩

theorem parseStream_classified_of_semicolon :
    (∀ token ∈ emptyClass ++ [semicolon], token.value.isEnd = false) ∧
      (∃ tree, (parseStream (.ofTokens emptyClass.toArray none)).1 = .ok tree) ∧
      (parseStream (.ofTokens (emptyClass ++ [semicolon]).toArray none)).1 =
        .error (.trailingInput semicolon.value semicolon.span) := by
  have inside : ∀ token ∈ emptyClass ++ [semicolon], token.value.isEnd = false := by decide
  have accepted : (parseStream (.ofTokens emptyClass.toArray none)).1.toOption.isSome = true := by
    decide +kernel
  obtain ⟨tree, present⟩ := Option.isSome_iff_exists.mp accepted
  have parsed := Except.ok_of_toOption present
  refine ⟨inside, ⟨tree, parsed⟩, ?_⟩
  exact (parseStream_classified inside (.inl rfl) none).2.2.2 emptyClass semicolon [] tree rfl parsed

end NandTools
