import NandTools.Proofs.Parser.Classification
import NandTools.Proofs.Token.Covers

/-! Where the parser stands in a token stream, and the spans of what it reads. Every tree spans its
tokens; every error speaks of a token, or of the tree that was refused. -/
namespace NandTools

open NandTools.Source

namespace Parser

/-- The tokens of a stream: those before its end, and the end. -/
structure Input (tokens : List (Located Token)) (last : Located Token) : Prop where
  ordered : Ordered tokens
  inside : ∀ token ∈ tokens, token.value.isEnd = false
  ended : last.value.isEnd = true

/-- The parser has read the tokens `used` of a stream and has those of `ahead` before it. The current
token is the last one read, unless the parser has met the end. -/
structure Stands (tokens : List (Located Token)) (last : Located Token)
    (used ahead : List (Located Token)) (p : Parser TokenStream) : Prop where
  whole : used ++ ahead = tokens
  sound : p.failure? = none
  holds : match p.pushedBack? with
    | none => p.supply.Holds ahead last
    | some token => ∃ rest, ahead = token :: rest ∧ p.supply.Holds rest last
  current : ahead ≠ [] → used.getLast? = some p.current
  among : p.current ∈ tokens ++ [last]

namespace Stands

variable {tokens used ahead rest : List (Located Token)} {first last : Located Token}
  {p : Parser TokenStream}

theorem ahead_inside (stands : Stands tokens last used ahead p) (input : Input tokens last) :
    ∀ token ∈ ahead, token.value.isEnd = false := fun token member =>
  input.inside token (stands.whole ▸ List.mem_append_right used member)

theorem noted (stands : Stands tokens last used ahead p) (notes : List ParserNote) :
    Stands tokens last used ahead { p with notes } :=
  ⟨stands.whole, stands.sound, stands.holds, stands.current, stands.among⟩

theorem awaits (stands : Stands tokens last used ahead p) (input : Input tokens last) :
    p.Awaits (ahead.map (·.value)) := by
  have inside := stands.ahead_inside input
  have holds := stands.holds
  refine ⟨stands.sound, ?_⟩
  cases back : p.pushedBack? with
  | none =>
    rw [back] at holds
    exact holds.yields inside input.ended
  | some token =>
    rw [back] at holds
    obtain ⟨rest, rfl, holds⟩ := holds
    rw [List.forall_mem_cons] at inside
    exact ⟨inside.1, _, rfl, holds.yields inside.2 input.ended⟩

private theorem advance_eq (stands : Stands tokens last used (first :: rest) p)
    (input : Input tokens last) : ∃ supply, supply.Holds rest last ∧ p.advance =
      { p with supply, pushedBack? := none, previous? := some p.current, current := first } := by
  have inside := stands.ahead_inside input first List.mem_cons_self
  have holds := stands.holds
  cases back : p.pushedBack? with
  | none =>
    rw [back] at holds
    obtain ⟨next, later⟩ := TokenStream.next_of_more holds inside
    refine ⟨_, later, ?_⟩
    have drawn : TokenSupply.next p.supply =
        (.ok first, { p.supply with cursor := p.supply.cursor + 1 }) := by
      simp only [TokenSupply.next, next]
    rw [advance_of_drawn stands.sound back drawn, back]
  | some token =>
    rw [back] at holds
    obtain ⟨rest', same, later⟩ := holds
    obtain ⟨rfl, rfl⟩ := List.cons.inj same
    exact ⟨p.supply, later, advance_of_pushedBack back⟩

/-- The next token becomes the current one. It can be put back. -/
theorem advance_cons (stands : Stands tokens last used (first :: rest) p)
    (input : Input tokens last) :
    p.advance.current = first ∧ p.advance.previous? = some p.current ∧
      Stands tokens last (used ++ [first]) rest p.advance ∧
      Stands tokens last used (first :: rest) p.advance.pushBack := by
  obtain ⟨supply, holds, moved⟩ := stands.advance_eq input
  have back : p.advance.pushBack =
      { p with supply, pushedBack? := some first, previous? := none, current := p.current } := by
    rw [moved]
    rfl
  have here : first ∈ tokens ++ [last] := by
    rw [← stands.whole]
    simp
  rw [back, moved]
  refine ⟨rfl, rfl, ⟨?_, stands.sound, holds, fun _ => List.getLast?_concat, here⟩,
    ⟨stands.whole, stands.sound, ⟨rest, rfl, holds⟩, stands.current, stands.among⟩⟩
  rw [List.append_assoc]
  exact stands.whole

theorem advance_nil (stands : Stands tokens last used [] p) (input : Input tokens last) :
    p.advance.current = last ∧ Stands tokens last used [] p.advance := by
  have holds := stands.holds
  have fresh : p.pushedBack? = none := by
    cases back : p.pushedBack? with
    | none => rfl
    | some token =>
      rw [back] at holds
      obtain ⟨rest, same, _⟩ := holds
      cases same
  rw [fresh] at holds
  have drawn : TokenSupply.next p.supply = (.ok last, p.supply) := by
    simp only [TokenSupply.next, TokenStream.next_of_last holds input.ended]
  rw [advance_of_drawn stands.sound fresh drawn]
  refine ⟨rfl, stands.whole, stands.sound, ?_, fun more => absurd rfl more, by simp⟩
  rw [fresh]
  exact holds

/-- Where a token other than the end is met, there is more to read. -/
theorem exists_ahead (stands : Stands tokens last used ahead p) (input : Input tokens last)
    (more : p.advance.current.value.isEnd = false) : ∃ first rest, ahead = first :: rest := by
  cases ahead with
  | nil =>
    rw [(stands.advance_nil input).1, input.ended] at more
    cases more
  | cons first rest => exact ⟨first, rest, rfl⟩

/-- What an incomplete construct is said to have met is a token of the stream, or its end. -/
theorem lookahead_mem (stands : Stands tokens last used ahead p) :
    p.lookahead ∈ tokens ++ [last] := by
  have holds := stands.holds
  rw [lookahead]
  cases back : p.pushedBack? with
  | none => exact stands.among
  | some token =>
    rw [back] at holds
    obtain ⟨rest, rfl, _⟩ := holds
    rw [← stands.whole]
    simp

end Stands

/-- What an error of the parser speaks of: a token of the stream or its end; or a tree, which an
enclosing construct that has been read up to there refuses. -/
def Blames (tokens : List (Located Token)) (last : Located Token) (e : SyntaxError)
    (p : Parser TokenStream) : Prop :=
  match e with
  | .incompleteRule _ _ found span | .unexpectedToken _ found span | .trailingInput found span =>
    ⟨found, span⟩ ∈ tokens ++ [last]
  | .misplacedRule rule enclosing span =>
    ∃ (front inside behind : List (Located Token)) (tree : Tree) (m : Matcher),
      Stands tokens last (front ++ inside) behind p ∧ Covers inside span ∧
      tree.rule? = some rule ∧ tree.tokens = inside.map (·.value) ∧
      m.rule = enclosing ∧ m.offer? tree = none ∧ m.tokens <:+ front.map (·.value)
  | .emptyInput | .maxRecursionDepth _ | .lexical _ => True

/-- The tokens that a construct begins with: the current one, and before it the name of a call. -/
inductive Opens (p : Parser TokenStream) : Option Tree → List (Located Token) → Prop where
  | current : Opens p none [p.current]
  | callee {name : Located Token} (before : p.previous? = some name) :
      Opens p (some (.leaf name.value)) [name, p.current]

/-- From `part` on more has been read, and the span covers both. -/
def Grows (tokens : List (Located Token)) (last : Located Token)
    (front part ahead : List (Located Token)) (read : List Token) (span : Span)
    (p : Parser TokenStream) : Prop :=
  ∃ more rest, ahead = more ++ rest ∧ Stands tokens last (front ++ (part ++ more)) rest p ∧
    read = (part ++ more).map (·.value) ∧ Covers (part ++ more) span

/-- What a reader may return: a tree that spans its tokens, or an error of something in the stream. -/
def Returns (tokens : List (Located Token)) (last : Located Token)
    (front part ahead : List (Located Token)) : Outcome TokenStream → Prop
  | (.ok tree, p) => Grows tokens last front part ahead tree.value.tokens tree.span p
  | (.error e, p) => Blames tokens last e p

/-- A reader does so wherever a construct begins. -/
def Placed (tokens : List (Located Token)) (last : Located Token) (read : Reader TokenStream) : Prop :=
  ∀ {rule callee? p front part ahead}, Begun rule callee? p → Opens p callee? part →
    Stands tokens last (front ++ part) ahead p →
    Returns tokens last front part ahead (read rule callee? p).val

section fill

variable {tokens front part ahead : List (Located Token)} {last : Located Token}
  {p p' : Parser TokenStream} {read : Reader TokenStream} {m m' : Matcher} {word : List Symbol}
  {span : Span} {e : SyntaxError}

theorem Stands.ordered {used rest : List (Located Token)} (stands : Stands tokens last used rest p)
    (input : Input tokens last) (inside : part <:+: used) : Ordered part := by
  refine input.ordered.of_infix (inside.trans ?_)
  rw [← stands.whole]
  exact (List.prefix_append _ _).isInfix

/-- What has been read since a part was longer has been read since it began. -/
private theorem Grows.widen {more : List (Located Token)} {word : List Token}
    (grows : Grows tokens last front (part ++ more) ahead word span p) :
    Grows tokens last front part (more ++ ahead) word span p := by
  obtain ⟨more', rest, rfl, stands, spelled, covers⟩ := grows
  rw [List.append_assoc] at stands spelled covers
  exact ⟨more ++ more', rest, (List.append_assoc _ _ _).symm, stands, spelled, covers⟩

theorem Placed.grows (placed : Placed tokens last read) {rule : Rule} {callee? : Option Tree}
    {tree : Located Tree} (begun : Begun rule callee? p) (opens : Opens p callee? part)
    (stands : Stands tokens last (front ++ part) ahead p)
    (built : (read rule callee? p).val = (.ok tree, p')) :
    Grows tokens last front part ahead tree.value.tokens tree.span p' := by
  have returns := placed begun opens stands
  rwa [built] at returns

theorem Placed.blames (placed : Placed tokens last read) {rule : Rule} {callee? : Option Tree}
    (begun : Begun rule callee? p) (opens : Opens p callee? part)
    (stands : Stands tokens last (front ++ part) ahead p)
    (built : (read rule callee? p).val = (.error e, p')) : Blames tokens last e p' := by
  have returns := placed begun opens stands
  rwa [built] at returns

/-- A child that has been read stands behind what the construct has. A call begins with the name that
the construct had. -/
structure Follows (tokens : List (Located Token)) (last : Located Token)
    (front part ahead : List (Located Token)) (span : Span) (m : Matcher) (tree : Located Tree)
    (p : Parser TokenStream) : Prop where
  together : Grows tokens last front part ahead (m.tokens ++ tree.value.tokens)
    (span.merge tree.span) p
  alone : ∃ before inside behind, Stands tokens last (before ++ inside) behind p ∧
    Covers inside tree.span ∧ tree.value.tokens = inside.map (·.value) ∧
    m.tokens <:+ before.map (·.value)

/-- What stands behind the tokens of a construct is merged with them. -/
private theorem Follows.of_grows (input : Input tokens last) (spelled : m.tokens = part.map (·.value))
    (covers : Covers part span) {first : Located Token} {rest : List (Located Token)}
    {tree : Located Tree}
    (grows : Grows tokens last (front ++ part) [first] rest tree.value.tokens tree.span p) :
    Follows tokens last front part (first :: rest) span m tree p := by
  obtain ⟨more, rest', rfl, stands, read, covered⟩ := grows
  refine ⟨⟨[first] ++ more, rest', by simp, ?_, ?_, ?_⟩, front ++ part, [first] ++ more, rest', stands,
    covered, read, ?_⟩
  · rwa [← List.append_assoc front]
  · simp [spelled, read]
  · refine covers.merge (stands.ordered input ?_) covered
    exact ⟨front, [], by simp⟩
  · rw [spelled, List.map_append]
    exact List.suffix_append _ _

/-- A call spans the name that the construct had. -/
private theorem Follows.of_call (input : Input tokens last) {name first : Located Token}
    (empty : m.tokens = []) (covers : Covers [name] span) {rest : List (Located Token)}
    {tree : Located Tree}
    (grows : Grows tokens last front [name, first] rest tree.value.tokens tree.span p) :
    Follows tokens last front [name] (first :: rest) span m tree p := by
  obtain ⟨more, rest', rfl, stands, read, covered⟩ := grows
  have ordered : Ordered ([name, first] ++ more) :=
    stands.ordered input (List.suffix_append _ _).isInfix
  have same : span.merge tree.span = tree.span :=
    covers.merge_front ordered ⟨first :: more, rfl⟩ covered
  refine ⟨⟨first :: more, rest', rfl, stands, ?_, ?_⟩, front, [name, first] ++ more, rest', stands,
    covered, read, ?_⟩
  · rw [empty, read]
    rfl
  · rw [same]
    exact covered
  · rw [empty]
    exact List.nil_suffix

/-- What is opened begins with the next token, or with the name that the construct had. -/
private theorem Stands.opens {first : Located Token} {rest : List (Located Token)} {rule : Rule}
    (stands : Stands tokens last (front ++ part) (first :: rest) p) (input : Input tokens last)
    (filling : m.Filling word) (unclosed : m.closed = false)
    (spelled : m.tokens = part.map (·.value))
    (opened : Rule.opened? (some m.rule) m.stage p.advance.current.value.kind = some rule) :
    (handOver rule m = (none, m) ∧ Opens p.advance none [first] ∧
      Stands tokens last (front ++ part ++ [first]) rest p.advance) ∨
    ∃ name : Located Token, part = [name] ∧
      handOver rule m = (some (.leaf name.value), { m with taken := [] }) ∧
      Opens p.advance (some (.leaf name.value)) [name, first] ∧
      Stands tokens last (front ++ [name, first]) rest p.advance := by
  obtain ⟨current, previous, after, -⟩ := stands.advance_cons input
  by_cases call : rule = .subroutineCall ∧ m.rule = .term
  · obtain ⟨rfl, inTerm⟩ := call
    rw [inTerm] at opened
    obtain ⟨token, taken, -⟩ :=
      filling.taken_of_opened_call unclosed inTerm (Rule.stage_of_opened_call opened)
    -- The name of the call is all that the term has, and the token before the current one.
    have alone : m.tokens = [token] := by simp [Matcher.tokens, Matcher.children, taken]
    obtain ⟨name, nothing, rfl, rfl, empty⟩ := List.map_eq_cons_iff.mp (spelled.symm.trans alone)
    obtain rfl := List.map_eq_nil_iff.mp empty
    have before : p.advance.previous? = some name := by
      have last := stands.current (List.cons_ne_nil _ _)
      rw [List.getLast?_concat] at last
      rw [previous, last]
    refine .inr ⟨name, rfl, ?_, ?_, by simpa using after⟩
    · rw [handOver, if_pos ⟨rfl, inTerm⟩, Matcher.pop, taken]
    · rw [← current]
      exact .callee before
  · refine .inl ⟨by rw [handOver, if_neg call], ?_, after⟩
    rw [← current]
    exact .current

theorem Placed.follows (placed : Placed tokens last read) (input : Input tokens last)
    (filling : m.Filling word) (unclosed : m.closed = false)
    (stands : Stands tokens last (front ++ part) ahead p) (spelled : m.tokens = part.map (·.value))
    (covers : Covers part span) {tree : Located Tree}
    (found : child read m p = (.ok (some tree), m', p')) :
    Follows tokens last front part ahead span m' tree p' := by
  cases finds_of_child found with
  | token inside =>
    obtain ⟨first, rest, rfl⟩ := stands.exists_ahead input inside
    obtain ⟨current, -, after, -⟩ := stands.advance_cons input
    refine .of_grows input spelled covers ⟨[], rest, rfl, by simpa using after, ?_, ?_⟩
    · rw [current]
      rfl
    · rw [current]
      exact .single first
  | production inside opened built =>
    obtain ⟨first, rest, rfl⟩ := stands.exists_ahead input inside
    have begun := begun_of_opened filling unclosed opened
    obtain ⟨handed, opens, there⟩ | ⟨name, rfl, handed, opens, there⟩ :=
      stands.opens input filling unclosed spelled opened
    · rw [handed] at begun built ⊢
      exact .of_grows input spelled covers (placed.grows begun opens there built)
    · rw [handed] at begun built ⊢
      exact .of_call input rfl covers (placed.grows begun opens there built)

theorem advance_of_child_end (found : child read m p = (.ok none, m', p')) :
    m' = m ∧ p' = p.advance ∧ p.advance.current.value.isEnd = true := by
  cases finds_of_child found with
  | ended ended => exact ⟨rfl, rfl, ended⟩

theorem Placed.blames_child (placed : Placed tokens last read) (input : Input tokens last)
    (filling : m.Filling word) (unclosed : m.closed = false)
    (stands : Stands tokens last (front ++ part) ahead p) (spelled : m.tokens = part.map (·.value))
    (failed : child read m p = (.error e, m', p')) : Blames tokens last e p' := by
  cases finds_of_child failed with
  | failed inside opened built =>
    obtain ⟨first, rest, rfl⟩ := stands.exists_ahead input inside
    have begun := begun_of_opened filling unclosed opened
    obtain ⟨handed, opens, there⟩ | ⟨name, rfl, handed, opens, there⟩ :=
      stands.opens input filling unclosed spelled opened
    · rw [handed] at begun built
      exact placed.blames begun opens there built
    · rw [handed] at begun built
      exact placed.blames begun opens there built

/-- What a construct that is being read comes to: more of it, or an error. -/
def Advances (tokens : List (Located Token)) (last : Located Token)
    (front part ahead : List (Located Token)) :
    Except SyntaxError (Matcher × Span) × Parser TokenStream → Prop
  | (.ok (m, span), p) => Grows tokens last front part ahead m.tokens span p
  | (.error e, p) => Blames tokens last e p

theorem Placed.advances_fill (placed : Placed tokens last read) (input : Input tokens last)
    (named : Named read) (sound : Sound read) (filling : m.Filling word)
    (stands : Stands tokens last (front ++ part) ahead p) (spelled : m.tokens = part.map (·.value))
    (covers : Covers part span) : Advances tokens last front part ahead (fill read m span p) := by
  fun_induction fill read m span p generalizing part ahead word with
  | case1 m span p closed =>
    exact ⟨[], ahead, rfl, by simpa using stands, by simp [spelled], by simpa using covers⟩
  | case2 m span p unclosed e m' p' found =>
    exact placed.blames_child input filling (by simpa using unclosed) stands spelled found
  | case3 m span p unclosed m' p' found =>
    obtain ⟨rfl, rfl, ended⟩ := advance_of_child_end found
    cases ahead with
    | nil =>
      have there := (stands.advance_nil input).2
      exact ⟨[], [], rfl, by simpa using there, by simp [spelled], by simpa using covers⟩
    | cons first rest =>
      rw [(stands.advance_cons input).1, stands.ahead_inside input first List.mem_cons_self] at ended
      cases ended
  | case4 m span p unclosed tree m' p' found _ m'' taken ih =>
    have unclosed : m.closed = false := by simpa using unclosed
    obtain ⟨⟨more, rest, rfl, there, read', covered⟩, -⟩ :=
      placed.follows input filling unclosed stands spelled covers found
    rw [← Matcher.tokens_offer taken] at read'
    have next := ih (filling_of_child named sound filling unclosed found taken) there read' covered
    rcases outcome : fill read m'' (span.merge tree.span) p' with ⟨e | ⟨last, whole⟩, q⟩
    · rw [outcome] at next
      exact next
    · rw [outcome] at next
      exact Grows.widen next
  | case5 m span p unclosed tree m' p' found _ refused token leaf =>
    obtain ⟨rfl, rfl, inside⟩ := advance_of_child_leaf named found leaf
    obtain ⟨first, rest, rfl⟩ := stands.exists_ahead input inside
    have back := (stands.advance_cons input).2.2.2
    exact ⟨[], first :: rest, rfl, by simpa using back, by simp [spelled], by simpa using covers⟩
  | case6 m span p unclosed tree m' p' found _ refused rule children mark branch =>
    have unclosed : m.closed = false := by simpa using unclosed
    obtain ⟨-, before, inside, behind, there, covered, read', taken⟩ :=
      placed.follows input filling unclosed stands spelled covers found
    refine ⟨before, inside, behind, tree.value, m', there, covered, ?_, read', rfl, refused, taken⟩
    rw [branch]
    rfl

private theorem tokens_first {rule : Rule} {tree : Tree}
    (taken : (Matcher.ofRule rule).offer? tree = some m) : m.tokens = tree.tokens :=
  (Matcher.tokens_offer taken).trans (List.nil_append _)

theorem Placed.advances_open (placed : Placed tokens last read) (input : Input tokens last)
    (named : Named read) {rule : Rule} {callee? : Option Tree} (begun : Begun rule callee? p)
    (opens : Opens p callee? part) (stands : Stands tokens last (front ++ part) ahead p) :
    Advances tokens last front part ahead (open_ read rule callee? p) := by
  have ordered : Ordered part := stands.ordered input (List.suffix_append _ _).isInfix
  cases opens with
  | @callee name before =>
    obtain ⟨rfl, ⟨_, ⟨⟩, isName⟩, isSign⟩ := begun
    obtain ⟨m, m', first, second⟩ := Matcher.exists_offer_callee isName isSign
    rw [open_of_callee rfl first second, before]
    refine ⟨[], ahead, rfl, by simpa using stands, ?_, ?_⟩
    · rw [Matcher.tokens_offer second, tokens_first first]
      rfl
    · have both : Covers ([name] ++ [p.current]) (name.span.merge p.current.span) :=
        (Covers.single name).merge ordered (.single p.current)
      exact both
  | current =>
    by_cases compound : rule = .expression ∨ rule = .expressionList
    · obtain ⟨first, opened, takes⟩ := Matcher.exists_offer_opened compound begun
      have begun' : Begun first none p := by
        refine Rule.mem_openers_of_opened opened fun both => ?_
        rcases compound with rfl | rfl <;> cases both.1
      rw [open_of_construct read compound opened]
      rcases built : (read first none p).val with ⟨e | tree, p'⟩
      · exact placed.blames begun' .current stands built
      · obtain ⟨m, taken⟩ := takes tree.value (named _ _ _ _ (congrArg Prod.fst built))
        obtain ⟨more, rest, rfl, there, read', covered⟩ := placed.grows begun' .current stands built
        have whole : Ordered ([p.current] ++ more) :=
          there.ordered input (List.suffix_append _ _).isInfix
        have same : p.current.span.merge tree.span = tree.span :=
          (Covers.single p.current).merge_front whole (List.prefix_append _ _) covered
        rw [andThen, seed_taken taken]
        refine ⟨more, rest, rfl, there, (tokens_first taken).trans read', ?_⟩
        rw [same]
        exact covered
    · obtain ⟨m, taken⟩ := Matcher.exists_offer_opener compound begun
      rw [open_of_leaf compound rfl taken]
      refine ⟨[], ahead, rfl, by simpa using stands, ?_, .single p.current⟩
      rw [tokens_first taken]
      rfl

theorem reader_placed (input : Input tokens last) (room : Nat) : Placed tokens last (reader room) := by
  induction room with
  | zero => exact fun _ _ _ => trivial
  | succ room ih =>
    intro rule callee? p front part ahead begun opens stands
    have opened := ih.advances_open input (reader_named room) begun opens stands
    rw [show ((reader (room + 1)) rule callee? p).val = build (reader room) rule callee? p from rfl,
      build]
    rcases outcome : open_ (reader room) rule callee? p with ⟨e | ⟨m, span⟩, q⟩
    · rw [outcome] at opened
      exact opened
    · rw [outcome] at opened
      obtain ⟨more, rest, rfl, there, spelled, covered⟩ := opened
      obtain ⟨word, filling⟩ := filling_of_open (reader_named room) (reader_sound room)
        begun.asked (congrArg Prod.fst outcome)
      have filled := ih.advances_fill input (reader_named room) (reader_sound room) filling there
        spelled covered
      dsimp only
      rcases outcome' : fill (reader room) m span q with ⟨e | ⟨m', span'⟩, q'⟩
      · rw [outcome'] at filled
        exact filled
      · rw [outcome'] at filled
        obtain ⟨more', rest', split, there', spelled', covered'⟩ := Grows.widen filled
        dsimp only
        rw [complete]
        split
        · refine ⟨more', rest', split, there'.noted _, ?_, covered'⟩
          rw [Matcher.toTree, Tree.tokens_branch]
          exact spelled'
        · exact there'.lookahead_mem

/-- A parser that has drawn the first token stands behind it. -/
private theorem Facing.stands {first : Located Token} {rest : List (Located Token)}
    (facing : p.Facing (first :: rest) last) :
    Stands (first :: rest) last [first] rest p.advance := by
  obtain ⟨current, after⟩ := facing.advance_cons
  refine ⟨rfl, after.sound, ?_, fun _ => by rw [current]; rfl, by rw [current]; simp⟩
  rw [after.fresh]
  exact after.holds

private theorem Stands.blames_closing {used : List (Located Token)}
    (stands : Stands tokens last used ahead p) (input : Input tokens last) {tree : Located Tree}
    {rule : Rule} (named : tree.value.rule? = some rule)
    (failed : finish (closing (some tree) p) = (.error e, p')) : Blames tokens last e p' := by
  rcases tree with ⟨_ | ⟨rule, children, closed⟩, span⟩
  · cases named
  · simp only [closing] at failed
    cases ahead with
    | nil =>
      obtain ⟨current, after⟩ := stands.advance_nil input
      rw [current, if_pos input.ended, finish_of_sound after.sound] at failed
      cases failed
    | cons first rest =>
      obtain ⟨current, -, after, -⟩ := stands.advance_cons input
      have more := stands.ahead_inside input first List.mem_cons_self
      rw [current, if_neg (by simp [more]), finish_of_sound after.sound] at failed
      cases failed
      rw [Blames, ← stands.whole]
      simp

/-- An error of a class speaks of a token of the stream or its end, or of a tree that is refused. -/
theorem Facing.blames (facing : p.Facing tokens last) (input : Input tokens last)
    (failed : p.parseClass = (.error e, p')) : Blames tokens last e p' := by
  cases tokens with
  | nil =>
    cases (congrArg Prod.fst failed).symm.trans facing.parseClass_of_nil
    trivial
  | cons first rest =>
    by_cases opening : first.value.kind = .keyword .class_
    · have stands := facing.stands
      have current := facing.advance_cons.1
      have begun : Begun .class_ none p.advance := by
        rw [Begun, current]
        exact List.mem_singleton.mpr opening
      have opens : Opens p.advance none [first] := current ▸ .current
      have inside : p.advance.current.value.isEnd = false := by
        rw [current]
        exact input.inside first List.mem_cons_self
      have sound := facing.advance_cons.2.sound_of_reader inside p.limit .class_ none
      have placed : Placed (first :: rest) last (reader p.limit) := reader_placed input p.limit
      have there : Stands (first :: rest) last ([] ++ [first]) rest p.advance := stands
      rw [parseClass_eq, classBy, facing.outermostBy_of_class opening] at failed
      rcases built : (reader p.limit .class_ none p.advance).val with ⟨e' | tree, q⟩
      · rw [built] at failed sound
        have kept : finish ((.error e', q) : Except SyntaxError Tree × Parser TokenStream) =
            (.error e', q) := finish_of_sound sound
        cases kept.symm.trans failed
        exact placed.blames begun opens there built
      · rw [built] at failed
        obtain ⟨more, rest', rfl, after, -⟩ := placed.grows begun opens there built
        exact after.blames_closing input (reader_named _ _ _ _ _ (congrArg Prod.fst built)) failed
    · cases (congrArg Prod.fst failed).symm.trans (facing.parseClass_of_stray opening)
      exact List.mem_cons_self

end fill

end Parser

end NandTools
