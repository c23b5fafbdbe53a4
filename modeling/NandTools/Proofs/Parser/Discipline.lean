import NandTools.Proofs.Parser.Moves
import NandTools.Proofs.Parser.Unlimited

/-! The moves that a parser makes while it reads are in order, whatever it is asked for and however
high its limit is. -/
namespace NandTools

open NandTools.Source

namespace Matcher

variable {m m' : Matcher} {tree : Tree}

/-- Until the matcher is closed, its children are all that it has been offered. -/
def Intact (m : Matcher) : Prop :=
  ∃ word, m.Reads word ∧ (m.closed = false → word = m.children.map Tree.symbol)

theorem intact_ofRule (rule : Rule) : (ofRule rule).Intact := ⟨[], .start rule, fun _ => rfl⟩

theorem Intact.offer (intact : m.Intact) (taken : m.offer? tree = some m') : m'.Intact := by
  obtain ⟨word, read, kept⟩ := intact
  refine ⟨word ++ [tree.symbol], .take read taken, fun _ => ?_⟩
  rw [children_of_offer taken, List.map_append, ← kept (unclosed_of_offer taken)]
  rfl

/-- A call that is taken closes the term that has given its name to it. -/
theorem Intact.offer_call (intact : m.Intact) (inTerm : m.rule = .term)
    (symbol : tree.symbol = .rule .subroutineCall) (taken : m.pop.2.offer? tree = some m') :
    m'.Intact := by
  obtain ⟨word, read, -⟩ := intact
  have emptied : m.pop.2.Reads word := .pop read
  have closed := emptied.closed_of_call (m.pop_rule.trans inTerm) taken symbol
  refine ⟨word ++ [tree.symbol], .take emptied taken, fun unclosed => ?_⟩
  rw [closed] at unclosed
  cases unclosed

end Matcher

namespace Parser

variable {σ : Type} [TokenSupply σ]

/-- The token that a child has just been read from, unless it is a production. -/
def source? (tree : Tree) (p : Parser σ) : Option (Located Token) :=
  match tree with
  | .leaf _ => some p.current
  | .branch .. => none

/-- What moves a reader makes. -/
abbrev Recorder (σ : Type) := Rule → Option Tree → Parser σ → List (Move σ)

/-- The moves of `child`, where the newest child of `m` was read from `origin?`. -/
def childMoves (record : Recorder σ) (m : Matcher) (origin? : Option (Located Token))
    (p : Parser σ) : List (Move σ) :=
  .advance p ::
    if p.advance.current.value.isEnd then []
    else
      match Rule.opened? (some m.rule) m.stage p.advance.current.value.kind with
      | none => []
      | some rule =>
        let callee? := (handOver rule m).1
        (if rule = .subroutineCall ∧ m.rule = .term then [.handOver callee? origin? p.advance]
          else []) ++ record rule callee? p.advance

/-- The moves of `fill`, where the newest child of `m` was read from `origin?`. -/
def fillMoves (read : Reader σ) (record : Recorder σ) (m : Matcher)
    (origin? : Option (Located Token)) (p : Parser σ) : List (Move σ) :=
  if m.closed then []
  else
    childMoves record m origin? p ++
      match found : child read m p with
      | (.ok (some tree), m', p') =>
        have := pending_child_lt found
        match m'.offer? tree.value with
        | some m' => fillMoves read record m' (source? tree.value p') p'
        | none =>
          match tree.value with
          | .leaf _ => [.putBack p']
          | .branch .. => []
      | _ => []
termination_by p.pending

/-- The moves of `open_`. -/
def openMoves (record : Recorder σ) (rule : Rule) (callee? : Option Tree) (p : Parser σ) :
    List (Move σ) :=
  match callee? with
  | some _ => []
  | none =>
    if rule = .expression ∨ rule = .expressionList then
      match Rule.opened? (some rule) .initial p.current.value.kind with
      | none => []
      | some first => record first none p
    else []

/-- The moves of `build`. -/
def buildMoves (read : Reader σ) (record : Recorder σ) : Recorder σ := fun rule callee? p =>
  openMoves record rule callee? p ++
    match open_ read rule callee? p with
    | (.error _, _) => []
    | (.ok (m, _), q) => fillMoves read record m (m.taken.head?.bind (source? · q)) q

/-- The moves of `reader`. -/
def readerMoves : Nat → Recorder σ
  | 0 => fun _ _ _ => []
  | room + 1 => buildMoves (reader room) (readerMoves room)

/-- The moves of `outermost`. -/
def outermostMoves (record : Recorder σ) (p : Parser σ) : List (Move σ) :=
  .advance p ::
    if p.advance.current.value.isEnd then []
    else
      match Rule.opened? none .initial p.advance.current.value.kind with
      | none => []
      | some rule => record rule none p.advance

/-- The reader makes these moves, and they are in order. -/
def Records (read : Reader σ) (record : Recorder σ) : Prop :=
  ∀ rule callee? p, Leads p (record rule callee? p) (read rule callee? p).val.2

variable {read : Reader σ} {record : Recorder σ} {m m' m'' : Matcher} {p p' : Parser σ}
  {origin? : Option (Located Token)} {tree : Located Tree}

/-- The newest child, if it is a token, has just been read from the current one. -/
def Newest (m : Matcher) (origin? : Option (Located Token)) (p : Parser σ) : Prop :=
  ∀ token, m.taken.head? = some (.leaf token) → origin? = some p.current ∧ p.current.value = token

theorem handOver_inOrder (intact : m.Intact) (unclosed : m.closed = false)
    (newest : Newest m origin? p) (inTerm : m.rule = .term) {kind : TokenKind}
    (opened : Rule.opened? (some m.rule) m.stage kind = some .subroutineCall) :
    (Move.handOver (handOver .subroutineCall m).1 origin? p.advance).InOrder := by
  have stage : m.stage = .afterIdentifier := by
    rw [inTerm] at opened
    exact Rule.stage_of_opened_call opened
  obtain ⟨word, read, kept⟩ := intact
  obtain ⟨name, taken, -⟩ := read.taken_of_name (kept unclosed) inTerm unclosed stage
  obtain ⟨origin, value⟩ := newest name (by rw [taken]; rfl)
  refine ⟨p.current, ?_, origin, previous_advance p⟩
  rw [handOver, if_pos ⟨rfl, inTerm⟩, Matcher.pop, taken, value]

theorem leads_child (records : Records read record) (intact : m.Intact)
    (unclosed : m.closed = false) (newest : Newest m origin? p) :
    Leads p (childMoves record m origin? p) (child read m p).2.2 := by
  unfold childMoves child
  dsimp only
  refine .advance ?_
  cases p.advance.current.value.isEnd with
  | true => exact .rest _
  | false =>
    simp only [Bool.false_eq_true, if_false]
    cases opened : Rule.opened? (some m.rule) m.stage p.advance.current.value.kind with
    | none => exact .rest _
    | some rule =>
      have later := records rule (handOver rule m).1 p.advance
      dsimp only
      split
      · next call =>
        obtain ⟨rfl, inTerm⟩ := call
        exact .handOver (handOver_inOrder intact unclosed newest inTerm opened) later
      · exact later

/-- A token that is found is the current one, and to advance to it is the only move. -/
theorem childMoves_of_leaf (named : Named read) {token : Token}
    (found : child read m p = (.ok (some tree), m', p')) (leaf : tree.value = .leaf token) :
    p.advance.current.value = token ∧ ∀ record : Recorder σ, ∀ origin?,
      childMoves record m origin? p = [.advance p] := by
  cases finds_of_child found with
  | token inside plain =>
    refine ⟨Tree.leaf.inj leaf, fun record origin? => ?_⟩
    simp only [childMoves, inside, plain, Bool.false_eq_true, if_false]
  | production _ _ same =>
    have rule := named _ _ _ _ (congrArg Prod.fst same)
    rw [leaf] at rule
    cases rule

/-- What a production takes next leaves it intact. -/
theorem intact_of_child (named : Named read) (intact : m.Intact)
    (found : child read m p = (.ok (some tree), m', p'))
    (taken : m'.offer? tree.value = some m'') : m''.Intact := by
  cases finds_of_child found with
  | token => exact intact.offer taken
  | production _ _ same =>
    have named := named _ _ _ _ (congrArg Prod.fst same)
    unfold handOver at taken
    split at taken
    · next call =>
      obtain ⟨rfl, inTerm⟩ := call
      exact intact.offer_call inTerm (symbol_of_rule named) taken
    · exact intact.offer taken

theorem newest_of_child (named : Named read) (found : child read m p = (.ok (some tree), m', p'))
    (taken : m'.offer? tree.value = some m'') : Newest m'' (source? tree.value p') p' := by
  intro token newest
  rw [(Matcher.offer_eq_some taken).2.1, List.head?_cons] at newest
  have leaf : tree.value = .leaf token := Option.some.inj newest
  obtain ⟨-, rfl, -⟩ := advance_of_child_leaf named found leaf
  rw [leaf]
  exact ⟨rfl, (childMoves_of_leaf named found leaf).1⟩

theorem fillMoves_eq (unclosed : m.closed = false) :
    fillMoves read record m origin? p = childMoves record m origin? p ++
      match child read m p with
      | (.ok (some tree), m', p') =>
        match m'.offer? tree.value with
        | some m' => fillMoves read record m' (source? tree.value p') p'
        | none =>
          match tree.value with
          | .leaf _ => [.putBack p']
          | .branch .. => []
      | _ => [] := by
  rw [fillMoves, if_neg (by simp [unclosed])]
  congr 1
  split
  · next same => simp only [same]
  · next other =>
    split
    · next same => exact absurd same (other _ _ _)
    · rfl

theorem leads_fill (named : Named read) (records : Records read record) (intact : m.Intact)
    (newest : Newest m origin? p) (span : Span) :
    Leads p (fillMoves read record m origin? p) (fill read m span p).2 := by
  fun_induction fill read m span p generalizing origin? with
  | case1 m span p closed =>
    rw [fillMoves, if_pos closed]
    exact .rest p
  | case2 m span p unclosed e m' p' found =>
    have unclosed : m.closed = false := by simpa using unclosed
    have child := leads_child records intact unclosed newest
    rw [fillMoves_eq unclosed]
    simpa [found] using child
  | case3 m span p unclosed m' p' found =>
    have unclosed : m.closed = false := by simpa using unclosed
    have child := leads_child records intact unclosed newest
    rw [fillMoves_eq unclosed]
    simpa [found] using child
  | case4 m span p unclosed tree m' p' found _ m'' taken ih =>
    have unclosed : m.closed = false := by simpa using unclosed
    have child := leads_child records intact unclosed newest
    -- Both what the matcher has kept and where its newest child comes from carry over.
    have later := ih (intact_of_child named intact found taken) (newest_of_child named found taken)
    rw [fillMoves_eq unclosed]
    simp only [found, taken] at child ⊢
    exact child.append later
  | case5 m span p unclosed tree m' p' found _ refused token leaf =>
    have unclosed : m.closed = false := by simpa using unclosed
    obtain ⟨-, rfl, inside⟩ := advance_of_child_leaf named found leaf
    rw [fillMoves_eq unclosed, (childMoves_of_leaf named found leaf).2]
    simp only [found, refused]
    rw [leaf]
    exact .putBack inside (.rest _)
  | case6 m span p unclosed tree m' p' found _ refused rule children closed branch =>
    have unclosed : m.closed = false := by simpa using unclosed
    have child := leads_child records intact unclosed newest
    rw [fillMoves_eq unclosed]
    simp only [found, refused] at child ⊢
    rw [branch]
    simpa using child

theorem leads_open (records : Records read record) (rule : Rule) (callee? : Option Tree)
    (p : Parser σ) : Leads p (openMoves record rule callee? p) (open_ read rule callee? p).2 := by
  unfold openMoves open_
  dsimp only
  cases callee? with
  | some callee => exact .rest p
  | none =>
    by_cases beginning : rule = .expression ∨ rule = .expressionList
    · rw [if_pos beginning, if_pos beginning]
      cases opens : Rule.opened? (some rule) .initial p.current.value.kind with
      | none =>
        simp only [show (Matcher.ofRule rule).stage = .initial from rfl, opens]
        exact .rest p
      | some first =>
        have moves := records first none p
        simp only [show (Matcher.ofRule rule).stage = .initial from rfl, opens]
        split <;> next same => simpa [same] using moves
    · rw [if_neg beginning, if_neg beginning]
      exact .rest p

/-- A production begins with the current token, or with another production. -/
theorem newest_of_open (named : Named read) {rule : Rule} {callee? : Option Tree} {span : Span}
    (opened : open_ read rule callee? p = (.ok (m, span), p')) :
    m.Intact ∧ Newest m (m.taken.head?.bind (source? · p')) p' := by
  have fresh := Matcher.intact_ofRule rule
  cases begins_of_open opened with
  | callee first second =>
    refine ⟨(fresh.offer first).offer second, fun token newest => ?_⟩
    rw [(Matcher.offer_eq_some second).2.1] at newest ⊢
    cases newest
    exact ⟨rfl, rfl⟩
  | construct _ _ same taken =>
    refine ⟨fresh.offer taken, fun token newest => ?_⟩
    rw [(Matcher.offer_eq_some taken).2.1, List.head?_cons] at newest
    have rule := named _ _ _ _ (congrArg Prod.fst same)
    rw [Option.some.inj newest] at rule
    cases rule
  | token _ taken =>
    refine ⟨fresh.offer taken, fun token newest => ?_⟩
    rw [(Matcher.offer_eq_some taken).2.1] at newest ⊢
    cases newest
    exact ⟨rfl, rfl⟩

theorem leads_build (named : Named read) (records : Records read record) (rule : Rule)
    (callee? : Option Tree) (p : Parser σ) :
    Leads p (buildMoves read record rule callee? p) (build read rule callee? p).2 := by
  have opening := leads_open records rule callee? p
  unfold buildMoves build
  rcases opened : open_ read rule callee? p with ⟨e | ⟨m, span⟩, q⟩
  · rw [opened] at opening
    simpa using opening
  · rw [opened] at opening
    obtain ⟨intact, newest⟩ := newest_of_open named opened
    have filling := leads_fill named records intact newest span
    dsimp only
    refine opening.append ?_
    rcases filled : fill read m span q with ⟨e | ⟨m', span'⟩, r⟩
    · rw [filled] at filling
      exact filling
    · rw [filled] at filling
      dsimp only [complete]
      split
      · exact filling.beside _ _
      · exact filling

theorem reader_records (room : Nat) : Records (reader room : Reader σ) (readerMoves room) := by
  induction room with
  | zero => exact fun _ _ p => .rest p
  | succ room ih => exact leads_build (reader_named room) ih

theorem leads_outermost (records : Records read record) (p : Parser σ) :
    Leads p (outermostMoves record p) (outermostBy read p).2 := by
  unfold outermostMoves outermostBy
  refine .advance ?_
  cases p.advance.current.value.isEnd with
  | true => exact .rest _
  | false =>
    simp only [Bool.false_eq_true, if_false]
    cases Rule.opened? none .initial p.advance.current.value.kind with
    | none => exact .rest _
    | some rule => exact records rule none p.advance

/-- The moves of `closing`. -/
def closingMoves (tree? : Option (Located Tree)) (p : Parser σ) : List (Move σ) :=
  match tree? with
  | none | some ⟨.leaf _, _⟩ => []
  | some ⟨.branch .., _⟩ => [.advance p]

theorem leads_closing (tree? : Option (Located Tree)) (p : Parser σ) :
    Leads p (closingMoves tree? p) (closing tree? p).2 := by
  rcases tree? with _ | ⟨⟨token⟩ | ⟨rule, children, closed⟩, span⟩
  · exact .rest p
  · exact .rest p
  · refine .advance ?_
    dsimp only [closing]
    split <;> exact .rest _

namespace Request

/-- The moves of an answer, with so much room. -/
def moves (room : Nat) : Request → Parser σ → List (Move σ)
  | part (.from_ none), p => outermostMoves (readerMoves room) p
  | part (.from_ (some rule)), p =>
    .advance p ::
      if p.advance.current.value.isEnd then [] else readerMoves room rule none p.advance
  | part (.within enclosing), p => childMoves (readerMoves room) (.ofRule enclosing) none p
  | class_, p =>
    outermostMoves (readerMoves room) p ++
      match outermostBy (reader room) p with
      | (.ok tree?, q) => closingMoves tree? q
      | (.error _, _) => []

theorem leads (room : Nat) (request : Request) (p : Parser σ) :
    Leads p (request.moves room p) (request.answerBy (reader room) p).2 := by
  have records : Records (reader room : Reader σ) (readerMoves room) := reader_records room
  match request with
  | part (.from_ none) =>
    refine Leads.finish ?_
    exact leads_outermost records p
  | part (.from_ (some rule)) =>
    refine Leads.finish ?_
    refine .advance ?_
    dsimp only [Call.readBy]
    split
    · exact .rest _
    · exact records rule none p.advance
  | part (.within enclosing) =>
    -- Nothing has been read yet that could be handed over.
    have newest : Newest (.ofRule enclosing) none p := fun _ absent => nomatch absent
    exact (leads_child records (Matcher.intact_ofRule enclosing) rfl newest).finish
  | class_ =>
    suffices reads : Leads p (class_.moves room p)
        (andThen (outermostBy (reader room) p) closing).2 from reads.finish
    have reading := leads_outermost records p
    simp only [moves]
    rcases out : outermostBy (reader room) p with ⟨e | tree?, q⟩
    · rw [out] at reading
      rw [List.append_nil]
      exact reading
    · rw [out] at reading
      exact reading.append (leads_closing tree? q)

end Request

/-- What is done with a parser from outside: it is asked for something, or its limit is set. -/
inductive Turn where
  | ask (request : Request)
  | limit (limit : Nat)

namespace Turn

def moves : Turn → Parser σ → List (Move σ)
  | ask request, p => request.moves p.limit p
  | limit _, _ => []

/-- The parser after a turn. -/
def apply : Turn → Parser σ → Parser σ
  | ask request, p => (request.answer p).2
  | limit bound, p => p.withLimit bound

theorem leads (turn : Turn) (p : Parser σ) : Leads p (turn.moves p) (turn.apply p) := by
  cases turn with
  | ask request =>
    simp only [moves, apply, Request.answer_eq]
    exact request.leads p.limit p
  | limit bound => exact (Leads.rest p).beside _ p.notes

end Turn

/-- The moves of these turns, and the parser after them. -/
def takeTurns : List Turn → Parser σ → List (Move σ) × Parser σ
  | [], p => ([], p)
  | turn :: rest, p =>
    let later := takeTurns rest (turn.apply p)
    (turn.moves p ++ later.1, later.2)

theorem leads_takeTurns (turns : List Turn) (p : Parser σ) :
    Leads p (takeTurns turns p).1 (takeTurns turns p).2 := by
  induction turns generalizing p with
  | nil => exact .rest p
  | cons turn rest ih => exact (turn.leads p).append (ih (turn.apply p))

/-- A new parser, with a limit that may be above the largest one. -/
def raised (supply : σ) (limit : Nat) : Parser σ := { ofSupply supply limit with limit }

omit [TokenSupply σ] in
theorem ofSupply_eq_raised (supply : σ) (limit : Nat) :
    ofSupply supply limit = raised supply (min limit Limits.parseDepth) := rfl

/-- A limit that is high enough for the tokens ahead is none. -/
theorem serve_unlimited {limit : Nat} (alike : (Pairing.widening σ limit 0).Alike p p)
    (sound : p.failure? = none) (enough : 3 * p.pending ≤ limit) (requests : List Request) :
    serve Request.answer requests p = serve (Request.answerBy unlimited) requests p ∧
      ∀ answer ∈ (serve Request.answer requests p).1, ∀ depth,
        answer ≠ .error (.maxRecursionDepth depth) := by
  induction requests generalizing p with
  | nil => exact ⟨rfl, fun _ absent => nomatch absent⟩
  | cons request rest ih =>
    have own : p.limit = limit := alike.limits.1
    obtain ⟨same, fits⟩ := answerBy_suffices (suffices_unlimited limit) request enough
    obtain ⟨-, alike, sound⟩ := Pairing.answerBy_agrees (Pairing.reader_agrees _ limit) rfl
      (fun _ _ _ same => same) request alike
    -- No answer leaves more tokens ahead, so that the limit stays high enough.
    have fewer := (request.leads limit p).pending_le
    obtain ⟨later, fitsLater⟩ := ih alike sound (by omega)
    simp only [serve, Request.answer_eq request p, own]
    refine ⟨?_, List.forall_mem_cons.mpr ⟨fits, fitsLater⟩⟩
    rw [later, ← same]

/-- Whoever asks a parser, and for whatever, in whatever order, what it does with its tokens is in
order. It puts a token back only where another one was read before it and none is held. A call that
begins in a term is handed the name that was read just before. The answers of the supply are asked for
one after the other, and their tokens are those that have been read and not put back, and the one
that is held. It answers without a limit as well: the reader that has none reads a production by
itself, no other one does, and it opens no more than three productions for each token ahead. -/
theorem moves_in_order (supply : σ) (limit : Nat) :
    (∀ turns : List Turn,
      let moves := (takeTurns turns (raised supply limit)).1
      let p := (takeTurns turns (raised supply limit)).2
      let answers := moves.flatMap Move.asked
      Leads (raised supply limit) moves p ∧ (∀ move ∈ moves, move.InOrder) ∧
        Gives supply answers p.supply ∧
        tokensOf answers = kept moves ++ p.pushedBack?.toList ∧
        ∀ tokens, Yields supply tokens → ∃ rest, Yields p.supply rest ∧
          tokens = (kept moves ++ p.pushedBack?.toList).map (·.value) ++ rest ∧
          ∀ token, .ok token ∈ answers → token.value.isEnd = true → rest = []) ∧
    (∀ rule callee? (p : Parser σ),
      (unlimited rule callee? p).val = build unlimited rule callee? p ∧
        (∀ read : Reader σ,
          (∀ rule callee? p, (read rule callee? p).val = build read rule callee? p) →
            (read rule callee? p).val = (unlimited rule callee? p).val) ∧
        ∀ room, need rule p ≤ room →
          (reader room rule callee? p).val = (unlimited rule callee? p).val) ∧
    (3 * TokenSupply.left supply ≤ limit → ∀ requests,
      serve Request.answer requests (raised supply limit) =
          serve (Request.answerBy unlimited) requests (raised supply limit) ∧
        ∀ answer ∈ (serve Request.answer requests (raised supply limit)).1, ∀ depth,
          answer ≠ .error (.maxRecursionDepth depth)) := by
  refine ⟨fun turns => ?_, fun rule callee? p => ⟨?_, ?_, ?_⟩, fun enough requests => ?_⟩
  · have leads := leads_takeTurns turns (raised supply limit)
    obtain ⟨-, gives, balanced⟩ := leads.balance (tidy_of_free rfl)
    obtain ⟨later, same, balance⟩ := balanced []
    rw [List.nil_append] at same
    have tokens : tokensOf ((takeTurns turns (raised supply limit)).1.flatMap Move.asked) =
        kept (takeTurns turns (raised supply limit)).1 ++
          (takeTurns turns (raised supply limit)).2.pushedBack?.toList := by
      rw [kept, same]
      exact balance
    refine ⟨leads, leads.inOrder, gives, tokens, fun ahead yields => ?_⟩
    rw [← tokens]
    exact gives.yields yields
  · exact unlimited_eq rule callee? p
  · exact fun read own => eq_unlimited own rule callee? p
  · exact fun room enough => (suffices_unlimited room rule callee? p enough).1
  · have alike : (Pairing.widening σ limit 0).Alike (raised supply limit) (raised supply limit) :=
      ⟨rfl, rfl, rfl, rfl, ⟨rfl, rfl⟩, rfl, nofun, nofun⟩
    exact serve_unlimited alike rfl enough requests

/-- The parenthesis that ends a call is put back by the term, the expression and the list before it,
one after the other. -/
theorem moves_in_order_of_call :
    let call : List Token :=
      [⟨.identifier, "f"⟩, .fixed (.sign .lparen), ⟨.identifier, "x"⟩, .fixed (.sign .rparen)]
    let tokens := call ++ [.fixed (.sign .semicolon)]
    let supply := TokenStream.ofTokens (tokens.map (⟨·, .dummy⟩)).toArray none
    let p := ofSupply supply 18
    let request := Request.part (.from_ (some .expression))
    let moves := (takeTurns [.ask request] p).1
    let q := (takeTurns [.ask request] p).2
    (moves.filterMap fun
      | .putBack p => some p.current.value
      | _ => none) = .replicate 3 (.fixed (.sign .rparen)) ++ [.fixed (.sign .semicolon)] ∧
    (moves.filterMap fun
      | .handOver callee? _ _ => callee?.map Tree.tokens
      | _ => none) = [[⟨.identifier, "f"⟩]] ∧
    (∀ move ∈ moves, move.InOrder) ∧ (kept moves).map (·.value) = call ∧ Yields q.supply [] ∧
    (reader 20 .expression none p).val = build unlimited .expression none p ∧
    ∀ answer ∈ (serve Request.answer [request] p).1, ∀ depth,
      answer ≠ .error (.maxRecursionDepth depth) := by
  intro call tokens supply p request moves q
  have settled := moves_in_order supply 18
  rw [← show p = raised supply 18 from ofSupply_eq_raised supply 18] at settled
  have read : (kept moves).map (·.value) = call ∧
      q.pushedBack?.toList.map (·.value) = [.fixed (.sign .semicolon)] := by
    decide +kernel
  obtain ⟨-, inOrder, -, -, ahead⟩ := settled.1 [.ask request]
  have inside : ∀ token ∈ tokens.map fun token => (⟨token, .dummy⟩ : Located Token),
      token.value.isEnd = false := by
    decide
  have yields : Yields supply tokens := TokenStream.yields_ofTokens inside (.inl rfl) none
  obtain ⟨rest, left, same, -⟩ := ahead tokens yields
  have nothing : rest = [] := by
    rw [List.map_append] at same
    exact List.append_right_eq_self.mp (same.symm.trans (by rw [read.1, read.2]))
  obtain ⟨reads, -, enough⟩ := settled.2.1 .expression none p
  refine ⟨by decide +kernel, by decide +kernel, inOrder, read.1, nothing ▸ left, ?_, ?_⟩
  · exact (enough 20 (by decide +kernel)).trans reads
  · exact (settled.2.2 (by decide +kernel) [request]).2

end Parser

end NandTools
