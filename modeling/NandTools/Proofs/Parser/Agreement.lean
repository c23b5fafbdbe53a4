import NandTools.Proofs.Parser.Height
import NandTools.Proofs.Parser.Step

/-! Parsers that draw the same tokens do the same. Where one of them has less room it may run out of
it, but then nothing is read with more room that would not need it. -/
namespace NandTools

open NandTools.Source

/-- What a draw failed with. -/
def failureOf : Except LexicalError (Located Token) → Option LexicalError
  | .ok _ => none
  | .error e => some e

/-- Two supplies that are drawn from in step, as long as neither has failed, for two parsers of which
the second one may open `slack` more productions. -/
structure Pairing (σ τ : Type) [TokenSupply σ] [TokenSupply τ] where
  same : Option LexicalError → σ → τ → Prop
  limit : Nat
  slack : Nat
  inStep : ∀ {s t}, same none s t → (TokenSupply.next s).1 = (TokenSupply.next t).1 ∧
    same (failureOf (TokenSupply.next s).1) (TokenSupply.next s).2 (TokenSupply.next t).2

namespace Parser

variable {σ : Type}

/-- Go on from an outcome, unless it is an error. -/
def andThen {α β : Type} (out : Except SyntaxError α × Parser σ)
    (next : α → Parser σ → Except SyntaxError β × Parser σ) : Except SyntaxError β × Parser σ :=
  match out with
  | (.error e, p) => (.error e, p)
  | (.ok a, p) => next a p

variable [TokenSupply σ] {read : Reader σ} {m m' : Matcher} {p : Parser σ} {span : Span}

/-- Whoever reads too deep a child has to be deep. -/
theorem depth_of_deep_child {room : Nat} (named : Named read) (sound : Sound read)
    {word : List Symbol} (filling : m.Filling word) (unclosed : m.closed = false)
    (deep : ∀ tree?, (child read m p).1 = .ok tree? → ∃ tree ∈ tree?, room < tree.value.height)
    {span' : Span} (filled : (fill read m span p).1 = .ok (m', span')) : room < m'.depth := by
  rcases found : child read m p with ⟨e | tree?, m₁, q⟩
  · rw [fill_failed unclosed found] at filled
    cases filled
  · obtain ⟨tree, rfl, tall⟩ := deep tree? (by rw [found])
    cases taken : m₁.offer? tree.value with
    | some m₂ =>
      rw [fill_taken unclosed found taken] at filled
      have filling := filling_of_child named sound filling unclosed found taken
      have kept := depth_le_of_fill named sound filling filled
      rw [Matcher.depth_of_offer taken] at kept
      exact Nat.lt_of_lt_of_le tall (Nat.le_trans (Nat.le_max_right _ _) kept)
    | none =>
      cases value : tree.value with
      | leaf token =>
        rw [value] at tall
        cases tall
      | branch rule children closed =>
        rw [fill_misplaced unclosed found taken value] at filled
        cases filled

omit [TokenSupply σ] in
theorem ok_of_andThen {α β : Type} {out : Except SyntaxError α × Parser σ}
    {next : α → Parser σ → Except SyntaxError β × Parser σ} {b : β}
    (returned : (andThen out next).1 = .ok b) :
    ∃ a, out.1 = .ok a ∧ andThen out next = next a out.2 := by
  rcases out with ⟨e | a, p⟩
  · cases returned
  · exact ⟨a, rfl, rfl⟩

omit [TokenSupply σ] in
theorem height_of_complete {tree : Located Tree} (completed : (complete m span p).1 = .ok tree) :
    tree.value.height = m.depth + 1 := by
  unfold complete at completed
  split at completed
  · cases completed
    exact m.height_toTree
  · cases completed

theorem open_of_construct (read : Reader σ) {rule first : Rule}
    (beginning : rule = .expression ∨ rule = .expressionList)
    (opens : Rule.opened? (some rule) .initial p.current.value.kind = some first) :
    open_ read rule none p =
      andThen (read first none p).val fun tree q =>
        ((seed (.ofRule rule) tree).map fun m => (m, p.current.span.merge tree.span), q) := by
  unfold open_
  simp only [beginning, if_true, show (Matcher.ofRule rule).stage = .initial from rfl, opens]
  rcases (read first none p).val with ⟨e | tree, q⟩ <;> rfl

theorem build_eq (read : Reader σ) (rule : Rule) (callee? : Option Tree) (p : Parser σ) :
    build read rule callee? p =
      andThen (open_ read rule callee? p) fun opened p =>
        andThen (fill read opened.1 opened.2 p) fun filled p => complete filled.1 filled.2 p := by
  unfold build
  rcases open_ read rule callee? p with ⟨e | ⟨m, span⟩, q⟩
  · rfl
  · dsimp only [andThen]
    rcases fill read m span q with ⟨e | ⟨m, span⟩, q⟩ <;> rfl

/-- Read what the next token opens outside of any production, or the token itself. -/
def outermostBy (read : Reader σ) (p : Parser σ) :
    Except SyntaxError (Option (Located Tree)) × Parser σ :=
  if p.advance.current.value.isEnd then (.ok none, p.advance)
  else
    match Rule.opened? none .initial p.advance.current.value.kind with
    | none => (.ok (some (p.advance.current.map .leaf)), p.advance)
    | some rule => ((read rule none p.advance).val.1.map some, (read rule none p.advance).val.2)

/-- What has been read has to be a class that ends the input. -/
def closing (tree? : Option (Located Tree)) (p : Parser σ) : Except SyntaxError Tree × Parser σ :=
  match tree? with
  | none => (.error .emptyInput, p)
  | some ⟨.leaf token, span⟩ =>
    (.error (.unexpectedToken (.field (.token (.keyword .class_))) token span), p)
  | some ⟨tree, _⟩ =>
    if p.advance.current.value.isEnd then (.ok tree, p.advance)
    else (.error (.trailingInput p.advance.current.value p.advance.current.span), p.advance)

def classBy (read : Reader σ) (p : Parser σ) : Except SyntaxError Tree × Parser σ :=
  finish (andThen (outermostBy read p) closing)

theorem outermost_eq (p : Parser σ) : p.outermost = outermostBy (reader p.limit) p := by
  rw [← p.advance_limit]
  rfl

theorem parseClass_eq (p : Parser σ) : p.parseClass = classBy (reader p.limit) p := by
  unfold parseClass classBy
  rw [outermost_eq]
  rcases outermostBy (reader p.limit) p with ⟨e | _ | ⟨⟨token⟩ | ⟨rule, children, closed⟩, span⟩, q⟩
  all_goals rfl

theorem of_closing {tree? : Option (Located Tree)} {tree : Tree}
    (closed : (closing tree? p).1 = .ok tree) :
    (∃ located ∈ tree?, located.value = tree) ∧ (closing tree? p).2 = p.advance ∧
      p.advance.current.value.isEnd = true := by
  unfold closing at closed ⊢
  split at closed
  · cases closed
  · cases closed
  · next value span _ =>
    split at closed
    · next ended =>
      cases closed
      exact ⟨⟨⟨tree, span⟩, rfl, rfl⟩, by rw [if_pos ended], ended⟩
    · cases closed

end Parser

namespace Pairing

variable {σ τ α β : Type} [TokenSupply σ] [TokenSupply τ] (pair : Pairing σ τ)

/-- The parsers have come equally far. The end of the input is never put back, and after a failure it
is all that is ahead. -/
structure Alike (p : Parser σ) (q : Parser τ) : Prop where
  current : p.current = q.current
  previous : p.previous? = q.previous?
  pushedBack : p.pushedBack? = q.pushedBack?
  failure : p.failure? = q.failure?
  limits : p.limit = pair.limit ∧ q.limit = pair.limit + pair.slack
  supply : pair.same p.failure? p.supply q.supply
  tidy : ∀ token, p.pushedBack? = some token → token.value.isEnd = false
  settled : ∀ e, p.failure? = some e → p.current.value.isEnd = true ∧ p.pushedBack? = none

/-- The outcomes are equal, or the first parser has run out of room where the second one fails or
returns something deep. -/
def Follows (deep : α → Prop) (out : Except SyntaxError α × Parser σ)
    (out' : Except SyntaxError α × Parser τ) : Prop :=
  (out.1 = out'.1 ∧ pair.Alike out.2 out'.2) ∨
    (0 < pair.slack ∧ (∃ depth, out.1 = .error (.maxRecursionDepth depth)) ∧ out.2.failure? = none ∧
      ∀ a, out'.1 = .ok a → deep a)

/-- The readers agree about all constructs that fit in the `room` of the first one. Whether they are
asked for something sensible only matters where one of them has more room. -/
def Agrees (room : Nat) (read : Parser.Reader σ) (read' : Parser.Reader τ) : Prop :=
  ∀ rule callee? p q, pair.Alike p q → p.current.value.isEnd = false →
    (0 < pair.slack → Parser.Asked rule callee? q) →
    pair.Follows (fun tree => room < tree.value.height) (read rule callee? p).val
      (read' rule callee? q).val

variable {pair} {p : Parser σ} {q : Parser τ} {deep : α → Prop} {deep' : β → Prop}
  {out : Except SyntaxError α × Parser σ} {out' : Except SyntaxError α × Parser τ}

namespace Alike

theorem sound (alike : pair.Alike p q) (inside : p.current.value.isEnd = false) :
    p.failure? = none := by
  cases failed : p.failure? with
  | none => rfl
  | some e =>
    rw [(alike.settled e failed).1] at inside
    cases inside

theorem advance (alike : pair.Alike p q) : pair.Alike p.advance q.advance := by
  obtain ⟨current, previous, back, failure, limits, supply, tidy, settled⟩ := alike
  cases held : p.pushedBack? with
  | some token =>
    rw [Parser.advance_of_pushedBack held, Parser.advance_of_pushedBack (back.symm.trans held)]
    refine ⟨rfl, congrArg some current, rfl, failure, limits, supply, nofun, fun e failed => ?_⟩
    rw [(settled e failed).2] at held
    cases held
  | none =>
    have held' := back.symm.trans held
    cases failed : p.failure? with
    | some e =>
      rw [Parser.advance_of_failed failed held,
        Parser.advance_of_failed (failure.symm.trans failed) held', current]
      exact ⟨rfl, rfl, back, failure, limits, supply, tidy, fun _ _ => ⟨rfl, held⟩⟩
    | none =>
      rw [failed] at supply
      obtain ⟨alike, goesOn⟩ := pair.inStep supply
      rcases drawn : TokenSupply.next p.supply with ⟨e | token, s⟩
      all_goals
        rcases drawn' : TokenSupply.next q.supply with ⟨drawn₂, t⟩
        rw [drawn, drawn'] at alike goesOn
        cases alike
      · rw [Parser.advance_of_failing failed held drawn,
          Parser.advance_of_failing (failure.symm.trans failed) held' drawn', current]
        exact ⟨rfl, rfl, back, rfl, limits, goesOn, tidy, fun _ _ => ⟨rfl, held⟩⟩
      · rw [Parser.advance_of_drawn failed held drawn,
          Parser.advance_of_drawn (failure.symm.trans failed) held' drawn', current]
        refine ⟨rfl, rfl, back, failure, limits, ?_, tidy, fun e broken => ?_⟩
        · rw [failed]
          exact goesOn
        · cases failed.symm.trans broken

theorem pushBack (alike : pair.Alike p q) (inside : p.current.value.isEnd = false) :
    pair.Alike p.pushBack q.pushBack := by
  have sound := alike.sound inside
  obtain ⟨current, previous, back, failure, limits, supply, tidy, settled⟩ := alike
  cases before : p.previous? with
  | none =>
    have before' := previous.symm.trans before
    simp only [Parser.pushBack, before, before']
    exact ⟨current, previous, back, failure, limits, supply, tidy, settled⟩
  | some token =>
    have before' := previous.symm.trans before
    simp only [Parser.pushBack, before, before']
    refine ⟨rfl, rfl, congrArg some current, failure, limits, supply, fun held same => ?_,
      fun e failed => ?_⟩
    · rw [← Option.some.inj same]
      exact inside
    · cases sound.symm.trans failed

theorem noted (alike : pair.Alike p q) (first second : List ParserNote) :
    pair.Alike { p with notes := first } { q with notes := second } :=
  ⟨alike.current, alike.previous, alike.pushedBack, alike.failure, alike.limits, alike.supply,
    alike.tidy, alike.settled⟩

theorem lookahead (alike : pair.Alike p q) : p.lookahead = q.lookahead := by
  rw [Parser.lookahead, Parser.lookahead, alike.pushedBack, alike.current]

end Alike

namespace Follows

theorem of_eq {result : Except SyntaxError α} (alike : pair.Alike p q) :
    pair.Follows deep (result, p) (result, q) :=
  .inl ⟨rfl, alike⟩

theorem of_ok {a : α} (follows : pair.Follows deep (.ok a, p) out') :
    ∃ q, out' = (.ok a, q) ∧ pair.Alike p q := by
  rcases follows with ⟨same, alike⟩ | ⟨_, ⟨_, short⟩, _⟩
  · exact ⟨out'.2, Prod.ext same.symm rfl, alike⟩
  · cases short

theorem alike (follows : pair.Follows deep out out') (none : pair.slack = 0) :
    out.1 = out'.1 ∧ pair.Alike out.2 out'.2 := by
  rcases follows with equal | ⟨more, _⟩
  · exact equal
  · omega

theorem map (follows : pair.Follows deep out out') {f : α → β}
    (deepens : ∀ a, deep a → deep' (f a)) :
    pair.Follows deep' (out.1.map f, out.2) (out'.1.map f, out'.2) := by
  rcases follows with ⟨same, alike⟩ | ⟨more, ⟨depth, short⟩, sound, tall⟩
  · exact .inl ⟨congrArg (Except.map f) same, alike⟩
  · refine .inr ⟨more, ⟨depth, by rw [short]; rfl⟩, sound, fun b mapped => ?_⟩
    obtain ⟨a, returned, rfl⟩ := Except.ok_of_map mapped
    exact deepens a (tall a returned)

theorem andThen (follows : pair.Follows deep out out')
    {next : α → Parser σ → Except SyntaxError β × Parser σ}
    {next' : α → Parser τ → Except SyntaxError β × Parser τ}
    (goesOn : ∀ a p q, out'.1 = .ok a → pair.Alike p q →
      pair.Follows deep' (next a p) (next' a q))
    (deepens : 0 < pair.slack →
      ∀ a q b, out'.1 = .ok a → deep a → (next' a q).1 = .ok b → deep' b) :
    pair.Follows deep' (Parser.andThen out next) (Parser.andThen out' next') := by
  obtain ⟨result, p⟩ := out
  obtain ⟨result', q⟩ := out'
  rcases follows with ⟨same, alike⟩ | ⟨more, ⟨depth, short⟩, sound, tall⟩
  · cases same
    cases result with
    | error e => exact .of_eq alike
    | ok a => exact goesOn a p q rfl alike
  · cases short
    refine .inr ⟨more, ⟨depth, rfl⟩, sound, fun b returned => ?_⟩
    cases result' with
    | error e => cases returned
    | ok a => exact deepens more a q b rfl (tall a rfl) returned

/-- What is reported in the end is the same, or that there is too little room. -/
theorem finish (follows : pair.Follows deep out out') :
    (Parser.finish out).1 = (Parser.finish out').1 ∨
      (0 < pair.slack ∧ (∃ depth, (Parser.finish out).1 = .error (.maxRecursionDepth depth)) ∧
        ∀ a, (Parser.finish out').1 = .ok a → deep a) := by
  rcases follows with ⟨same, alike⟩ | ⟨more, ⟨depth, short⟩, sound, tall⟩
  · left
    rw [Parser.finish, Parser.finish, ← alike.failure]
    split
    · rfl
    · exact same
  · refine .inr ⟨more, ⟨depth, ?_⟩, fun a returned => tall a (Parser.ok_of_finish returned)⟩
    rw [Parser.finish, sound]
    exact short

end Follows

variable {m : Matcher} {room : Nat} {read : Parser.Reader σ} {read' : Parser.Reader τ}

/-- The children that are read next are the same. -/
theorem child_follows (agrees : pair.Agrees room read read') (alike : pair.Alike p q)
    (asks : 0 < pair.slack → ∀ rule,
      Rule.opened? (some m.rule) m.stage q.advance.current.value.kind = some rule →
        Parser.Asked rule (Parser.handOver rule m).1 q.advance) :
    (Parser.child read m p).2.1 = (Parser.child read' m q).2.1 ∧
      pair.Follows (fun tree? => ∃ tree ∈ tree?, room < tree.value.height)
        ((Parser.child read m p).1, (Parser.child read m p).2.2)
        ((Parser.child read' m q).1, (Parser.child read' m q).2.2) := by
  have advanced := alike.advance
  unfold Parser.child
  dsimp only
  rw [advanced.current]
  cases ended : q.advance.current.value.isEnd with
  | true => exact ⟨rfl, .of_eq advanced⟩
  | false =>
    simp only [Bool.false_eq_true, if_false]
    split
    · exact ⟨rfl, .of_eq advanced⟩
    · next rule opened =>
      have inside : p.advance.current.value.isEnd = false := by rw [advanced.current, ended]
      exact ⟨rfl, (agrees rule _ _ _ advanced inside fun more => asks more rule opened).map
        fun tree tall => ⟨tree, rfl, tall⟩⟩

/-- In the midst of a production only what may stand there is asked for. -/
private theorem asks_of_filling (filling : 0 < pair.slack → ∃ word, m.Filling word)
    (unclosed : m.closed = false) (more : 0 < pair.slack) (rule : Rule)
    (opened : Rule.opened? (some m.rule) m.stage q.advance.current.value.kind = some rule) :
    Parser.Asked rule (Parser.handOver rule m).1 q.advance := by
  obtain ⟨_, filling⟩ := filling more
  exact (Parser.handOver_of_opened filling unclosed opened).1

/-- A child that is read with less room is read with more. -/
private theorem child_of_ok (agrees : pair.Agrees room read read')
    (filling : 0 < pair.slack → ∃ word, m.Filling word) (unclosed : m.closed = false) (alike : pair.Alike p q) {tree? : Option (Located Tree)}
    {m' : Matcher} {p' : Parser σ} (found : Parser.child read m p = (.ok tree?, m', p')) :
    ∃ q', Parser.child read' m q = (.ok tree?, m', q') ∧ pair.Alike p' q' := by
  obtain ⟨matcher, follows⟩ := child_follows agrees alike (asks_of_filling filling unclosed)
  rw [found] at matcher follows
  obtain ⟨q', same, alike⟩ := follows.of_ok
  obtain ⟨result, rfl⟩ := Prod.mk.inj same
  exact ⟨_, Prod.ext result (Prod.ext matcher.symm rfl), alike⟩

theorem fill_follows (agrees : pair.Agrees room read read') (named : Parser.Named read')
    (sound : Parser.Sound read') (filling : 0 < pair.slack → ∃ word, m.Filling word)
    (alike : pair.Alike p q) (span : Span) :
    pair.Follows (fun filled => room < filled.1.depth) (Parser.fill read m span p)
      (Parser.fill read' m span q) := by
  fun_induction Parser.fill read m span p generalizing q with
  | case1 m span p closed =>
    rw [Parser.fill_closed closed]
    exact .of_eq alike
  | case2 m span p unclosed e m₁ p' found =>
    have unclosed : m.closed = false := by simpa using unclosed
    obtain ⟨-, follows⟩ := child_follows agrees alike (asks_of_filling filling unclosed)
    rw [found] at follows
    rcases follows with ⟨same, alike⟩ | ⟨more, ⟨depth, short⟩, fine, tall⟩
    · rw [Parser.fill_failed unclosed (Prod.ext same.symm rfl)]
      exact .of_eq alike
    · obtain ⟨_, filling⟩ := filling more
      refine .inr ⟨more, ⟨depth, ?_⟩, fine, fun _ filled =>
        Parser.depth_of_deep_child named sound filling unclosed tall filled⟩
      cases short
      rfl
  | case3 m span p unclosed m₁ p' found =>
    have unclosed : m.closed = false := by simpa using unclosed
    obtain ⟨q', found', alike⟩ := child_of_ok agrees filling unclosed alike found
    rw [Parser.fill_ended unclosed found']
    exact .of_eq alike
  | case4 m span p unclosed tree m₁ p' found _ m₂ taken ih =>
    have unclosed : m.closed = false := by simpa using unclosed
    obtain ⟨q', found', alike⟩ := child_of_ok agrees filling unclosed alike found
    rw [Parser.fill_taken unclosed found' taken]
    refine ih (fun more => ?_) alike
    obtain ⟨_, filling⟩ := filling more
    exact ⟨_, Parser.filling_of_child named sound filling unclosed found' taken⟩
  | case5 m span p unclosed tree m₁ p' found _ refused token leaf =>
    have unclosed : m.closed = false := by simpa using unclosed
    obtain ⟨q', found', alike⟩ := child_of_ok agrees filling unclosed alike found
    rw [Parser.fill_refused unclosed found' refused leaf]
    obtain ⟨-, rfl, inside⟩ := Parser.advance_of_child_leaf named found' leaf
    exact .inl ⟨rfl, alike.pushBack (by rw [alike.current, inside])⟩
  | case6 m span p unclosed tree m₁ p' found _ refused rule children closed branch =>
    have unclosed : m.closed = false := by simpa using unclosed
    obtain ⟨q', found', alike⟩ := child_of_ok agrees filling unclosed alike found
    rw [Parser.fill_misplaced unclosed found' refused branch]
    exact .of_eq alike

theorem open_follows (agrees : pair.Agrees room read read') {rule : Rule} (callee? : Option Tree)
    (alike : pair.Alike p q) (inside : p.current.value.isEnd = false) :
    pair.Follows (fun opened => room < opened.1.depth) (Parser.open_ read rule callee? p)
      (Parser.open_ read' rule callee? q) := by
  by_cases construct : callee? = none ∧ (rule = .expression ∨ rule = .expressionList) ∧
      ∃ first, Rule.opened? (some rule) .initial p.current.value.kind = some first
  · obtain ⟨rfl, beginning, first, opens⟩ := construct
    have asked : Parser.Asked first none q := by
      rintro rfl
      rw [alike.current] at opens
      exact Rule.startsTerm_of_opened opens
    rw [Parser.open_of_construct read beginning opens,
      Parser.open_of_construct read' beginning (alike.current ▸ opens), alike.current]
    refine (agrees first none p q alike inside fun _ => asked).andThen ?_ ?_
    · intro tree p q _ alike
      exact .of_eq alike
    · intro _ tree q opened _ tall returned
      obtain ⟨m, seeded, rfl⟩ := Except.ok_of_map returned
      rw [Parser.depth_of_seed seeded, Matcher.depth_ofRule, Nat.zero_max]
      exact tall
  · -- Nothing else is read here.
    unfold Parser.open_
    dsimp only
    rw [← alike.current, ← alike.previous]
    split
    · exact .of_eq alike
    · split
      · next beginning =>
        split
        · exact .of_eq alike
        · next first opens => exact absurd ⟨rfl, beginning, first, opens⟩ construct
      · exact .of_eq alike

theorem complete_follows (m : Matcher) (span : Span) (alike : pair.Alike p q) :
    pair.Follows (fun tree => room + 1 < tree.value.height) (Parser.complete m span p)
      (Parser.complete m span q) := by
  unfold Parser.complete
  dsimp only
  rw [alike.lookahead]
  split
  · exact .of_eq (alike.noted _ _)
  · exact .of_eq alike

/-- Readers that agree about the parts agree about the whole. -/
theorem build_follows (agrees : pair.Agrees room read read') (named : Parser.Named read')
    (sound : Parser.Sound read') {rule : Rule} {callee? : Option Tree} (alike : pair.Alike p q)
    (inside : p.current.value.isEnd = false) (asked : 0 < pair.slack → Parser.Asked rule callee? q) :
    pair.Follows (fun tree => room + 1 < tree.value.height) (Parser.build read rule callee? p)
      (Parser.build read' rule callee? q) := by
  rw [Parser.build_eq, Parser.build_eq]
  refine (open_follows agrees callee? alike inside).andThen ?_ ?_
  · intro opened p q same alike
    have filling : 0 < pair.slack → ∃ word, opened.1.Filling word :=
      fun more => Parser.filling_of_open named sound (asked more) same
    refine (fill_follows agrees named sound filling alike opened.2).andThen ?_ ?_
    · intro filled p q _ alike
      exact complete_follows _ _ alike
    · intro _ filled q tree _ tall completed
      rw [Parser.height_of_complete completed]
      exact Nat.succ_lt_succ tall
  · intro more opened q tree same tall returned
    obtain ⟨_, filling⟩ := Parser.filling_of_open named sound (asked more) same
    obtain ⟨filled, later, same⟩ := Parser.ok_of_andThen returned
    rw [same] at returned
    rw [Parser.height_of_complete returned]
    have kept := Parser.depth_le_of_fill named sound filling later
    exact Nat.succ_lt_succ (Nat.lt_of_lt_of_le tall kept)

theorem reader_agrees (pair : Pairing σ τ) (room : Nat) :
    pair.Agrees room (Parser.reader room) (Parser.reader (room + pair.slack)) := by
  induction room with
  | zero =>
    intro rule callee? p q alike inside asked
    obtain ⟨limit, limit'⟩ := alike.limits
    by_cases more : 0 < pair.slack
    · refine .inr ⟨more, ⟨_, rfl⟩, alike.sound inside, fun tree returned => ?_⟩
      exact Tree.height_pos_of_rule (Parser.reader_named _ _ _ _ _ returned)
    · have none : pair.slack = 0 := by omega
      refine .inl ⟨?_, ?_⟩
      · rw [none, Nat.add_zero] at limit' ⊢
        simp only [Parser.reader, limit, limit']
      · rw [none]
        exact alike
  | succ room ih =>
    intro rule callee? p q alike inside asked
    rw [Nat.add_right_comm]
    exact build_follows ih (Parser.reader_named _) (Parser.reader_sound _) alike inside asked

omit [TokenSupply τ] in
theorem asked_outermost {rule : Rule} {kind : TokenKind}
    (opened : Rule.opened? none .initial kind = some rule) (q : Parser τ) :
    Parser.Asked rule none q := by
  rintro rfl
  simp only [Rule.opened?] at opened
  split at opened <;> cases opened

theorem outermostBy_follows (agrees : pair.Agrees room read read') (alike : pair.Alike p q) :
    pair.Follows (fun tree? => ∃ tree ∈ tree?, room < tree.value.height)
      (Parser.outermostBy read p) (Parser.outermostBy read' q) := by
  have advanced := alike.advance
  unfold Parser.outermostBy
  rw [advanced.current]
  cases ended : q.advance.current.value.isEnd with
  | true => exact .of_eq advanced
  | false =>
    simp only [Bool.false_eq_true, if_false]
    split
    · exact .of_eq advanced
    · next rule opened =>
      have inside : p.advance.current.value.isEnd = false := by rw [advanced.current, ended]
      exact (agrees rule none _ _ advanced inside fun _ => asked_outermost opened _).map
        fun tree tall => ⟨tree, rfl, tall⟩

theorem closing_follows (tree? : Option (Located Tree)) (alike : pair.Alike p q)
    {deep : Tree → Prop} :
    pair.Follows deep (Parser.closing tree? p) (Parser.closing tree? q) := by
  have advanced := alike.advance
  unfold Parser.closing
  split
  · exact .of_eq alike
  · exact .of_eq alike
  · rw [advanced.current]
    split
    · exact .of_eq advanced
    · exact .of_eq advanced

theorem andThen_closing_follows (agrees : pair.Agrees room read read') (alike : pair.Alike p q) :
    pair.Follows (fun tree => room < tree.height)
      (Parser.andThen (Parser.outermostBy read p) Parser.closing)
      (Parser.andThen (Parser.outermostBy read' q) Parser.closing) := by
  refine (outermostBy_follows agrees alike).andThen ?_ ?_
  · intro tree? p q _ alike
    exact closing_follows tree? alike
  · rintro _ tree? q tree _ ⟨located, member, tall⟩ closed
    obtain ⟨⟨located', member', rfl⟩, -⟩ := Parser.of_closing closed
    obtain rfl := Option.mem_unique member member'
    exact tall

/-- A class is read alike, unless it is too deep for the first parser. -/
theorem parseClass_agrees (alike : pair.Alike p q) :
    p.parseClass.1 = q.parseClass.1 ∨
      (0 < pair.slack ∧ (∃ depth, p.parseClass.1 = .error (.maxRecursionDepth depth)) ∧
        ∀ tree, q.parseClass.1 = .ok tree → pair.limit < tree.height) := by
  obtain ⟨limit, limit'⟩ := alike.limits
  rw [Parser.parseClass_eq, Parser.parseClass_eq, limit, limit']
  exact (andThen_closing_follows (pair.reader_agrees pair.limit) alike).finish

end Pairing

end NandTools
