import NandTools.Log.Event
import NandTools.Parser.Error
import NandTools.Parser.Matcher
import NandTools.Token.Supply

/-! The parser draws tokens from a supply, with room for one token put back, and offers them to
the matchers of the productions that are open. What a token opens is the grammar's to say. -/
namespace NandTools

open NandTools.Source

/-- What the parser reports while it works. -/
inductive ParserNote where
  | matched (rule : Rule) (children : Nat) (closed : Bool)
  | supplyFailed (cause : LexicalError)
deriving Repr, DecidableEq

def ParserNote.event : ParserNote → Event
  | matched rule children closed =>
    .debug "Rule matched"
      [("rule", rule.name), ("children", toString children), ("closed", toString closed)]
  | supplyFailed cause =>
    .debug "Token source failed, ending parse" [("error", cause.message)]

/-- The notes are kept newest first. -/
structure Parser (σ : Type) where
  supply : σ
  current : Located Token
  previous? : Option (Located Token)
  pushedBack? : Option (Located Token)
  failure? : Option LexicalError
  limit : Nat
  notes : List ParserNote

namespace Parser

variable {σ : Type} [TokenSupply σ]

/-- No more than `limit` productions may be open at once. -/
def ofSupply (supply : σ) (limit : Nat) : Parser σ where
  supply
  current := ⟨.endOfInput, ⟨⟨0, 0, 0⟩, ⟨0, 0, 0⟩⟩⟩
  previous? := none
  pushedBack? := none
  failure? := none
  limit := min limit Limits.parseDepth
  notes := []

/-- Draw a token. A failing supply counts as ended, and is not asked again. -/
def scan (p : Parser σ) : Located Token × Parser σ :=
  match p.failure? with
  | some _ => (⟨.endOfInput, .single p.current.span.stop⟩, p)
  | none =>
    match TokenSupply.next p.supply with
    | (.ok token, supply) => (token, { p with supply })
    | (.error e, supply) =>
      (⟨.endOfInput, .single p.current.span.stop⟩,
        { p with supply, failure? := some e, notes := .supplyFailed e :: p.notes })

def advance (p : Parser σ) : Parser σ :=
  match p.pushedBack? with
  | some token => { p with pushedBack? := none, previous? := some p.current, current := token }
  | none => { p.scan.2 with previous? := some p.current, current := p.scan.1 }

/-- Undo the last advance. -/
def pushBack (p : Parser σ) : Parser σ :=
  match p.previous? with
  | some token => { p with pushedBack? := some p.current, previous? := none, current := token }
  | none => p

/-- The token that the next advance yields, if it has been read, else the current one. -/
def lookahead (p : Parser σ) : Located Token := p.pushedBack?.getD p.current

/-- A bound on the tokens that are still to be read. -/
def pending (p : Parser σ) : Nat :=
  TokenSupply.left p.supply + if p.pushedBack?.isSome then 1 else 0

theorem scan_pushedBack (p : Parser σ) : p.scan.2.pushedBack? = p.pushedBack? := by
  unfold scan
  split
  · rfl
  · split <;> rfl

theorem left_scan (p : Parser σ) : TokenSupply.left p.scan.2.supply ≤ TokenSupply.left p.supply := by
  have fewer := TokenSupply.left_next p.supply
  unfold scan
  split
  · exact Nat.le_refl _
  · split <;> next same => simpa [same] using fewer

theorem left_scan_lt {p : Parser σ} (more : p.scan.1.value.isEnd = false) :
    TokenSupply.left p.scan.2.supply < TokenSupply.left p.supply := by
  unfold scan at more ⊢
  split at more
  · cases more
  · split at more
    · next token supply same =>
      have drawn : (TokenSupply.next p.supply).1 = .ok token := by rw [same]
      simpa [same] using TokenSupply.left_next_lt drawn more
    · cases more

theorem pending_advance (p : Parser σ) : p.advance.pending ≤ p.pending := by
  have fewer := left_scan p
  have kept := scan_pushedBack p
  unfold advance pending
  split
  · next same => simp [same]
  · next same =>
    rw [same] at kept
    simpa [kept, same] using fewer

theorem pending_advance_lt {p : Parser σ} (more : p.advance.current.value.isEnd = false) :
    p.advance.pending < p.pending := by
  have kept := scan_pushedBack p
  unfold advance at more
  unfold advance pending
  split
  · next same => simp [same]
  · next same =>
    simp only [same] at more kept
    simpa [kept, same] using left_scan_lt more

/-- One token that was read after `q` may be put back without exceeding what was left there. -/
theorem pending_pushBack {p : Parser σ} {bound : Nat} (fewer : p.pending < bound) :
    p.pushBack.pending ≤ bound := by
  unfold pushBack
  split
  · unfold pending at fewer ⊢
    simp only [Option.isSome_some, if_true]
    omega
  · exact Nat.le_of_lt fewer

abbrev Outcome (σ : Type) := Except SyntaxError (Located Tree) × Parser σ

/-- A reader for productions whose opening token is the current one. It may be handed the name
that turned out to begin a call, and never unreads what came before it. -/
def Reader (σ : Type) [TokenSupply σ] :=
  Rule → Option Tree → (p : Parser σ) → { out : Outcome σ // out.2.pending ≤ p.pending }

def expectation (m : Matcher) : Expectation :=
  match m.awaited? with
  | some field => .field field.acceptance
  | none => .nothing

/-- Offer one of the first children, which may not be refused. -/
def seed (m : Matcher) (child : Located Tree) : Except SyntaxError Matcher :=
  match m.offer? child.value with
  | some m => .ok m
  | none =>
    match child.value with
    | .leaf token => .error (.unexpectedToken (expectation m) token child.span)
    | .branch rule _ _ => .error (.misplacedRule rule m.rule child.span)

/-- A name already taken by a term moves into the call it begins. -/
def handOver (rule : Rule) (m : Matcher) : Option Tree × Matcher :=
  if rule = .subroutineCall ∧ m.rule = .term then m.pop else (none, m)

/-- Read the next child for `m`: what the next token opens, or the token itself. -/
def child (read : Reader σ) (m : Matcher) (p : Parser σ) :
    Except SyntaxError (Option (Located Tree)) × Matcher × Parser σ :=
  let p := p.advance
  if p.current.value.isEnd then (.ok none, m, p)
  else
    match Rule.opened? (some m.rule) m.stage p.current.value.kind with
    | none => (.ok (some (p.current.map .leaf)), m, p)
    | some rule =>
      let (callee?, m) := handOver rule m
      let out := (read rule callee? p).val
      (out.1.map some, m, out.2)

theorem pending_child (read : Reader σ) (m : Matcher) (p : Parser σ) :
    (child read m p).2.2.pending ≤ p.pending := by
  have fewer := pending_advance p
  unfold child
  dsimp only
  split
  · exact fewer
  · split
    · exact fewer
    · exact Nat.le_trans (read _ _ _).property fewer

theorem pending_child_lt {read : Reader σ} {m m' : Matcher} {p p' : Parser σ} {tree : Located Tree}
    (found : child read m p = (.ok (some tree), m', p')) : p'.pending < p.pending := by
  unfold child at found
  dsimp only at found
  split at found
  · cases found
  · next more =>
    have fewer := pending_advance_lt (by simpa using more)
    split at found
    · cases found
      exact fewer
    · have same := congrArg (fun out => out.2.2) found
      dsimp only at same
      rw [← same]
      exact Nat.lt_of_le_of_lt (read _ _ _).property fewer

/-- Read children until the production is closed, the input ends or a token is refused, which
is put back. The span grows with every child. -/
def fill (read : Reader σ) (m : Matcher) (span : Span) (p : Parser σ) :
    Except SyntaxError (Matcher × Span) × Parser σ :=
  if m.closed then (.ok (m, span), p)
  else
    match found : child read m p with
    | (.error e, _, p) => (.error e, p)
    | (.ok none, m, p) => (.ok (m, span), p)
    | (.ok (some tree), m, p') =>
      have := pending_child_lt found
      match m.offer? tree.value with
      | some m => fill read m (span.merge tree.span) p'
      | none =>
        match tree.value with
        | .leaf _ => (.ok (m, span), p'.pushBack)
        | .branch rule _ _ => (.error (.misplacedRule rule m.rule tree.span), p')
termination_by p.pending

theorem pending_fill (read : Reader σ) (m : Matcher) (span : Span) (p : Parser σ) :
    (fill read m span p).2.pending ≤ p.pending := by
  fun_induction fill read m span p with
  | case1 => exact Nat.le_refl _
  | case2 m span p _ e m' p' found =>
    have fewer := pending_child read m p
    rw [found] at fewer
    exact fewer
  | case3 m span p _ m' p' found =>
    have fewer := pending_child read m p
    rw [found] at fewer
    exact fewer
  | case4 _ _ _ _ _ _ _ _ fewer _ _ ih => exact Nat.le_trans ih (Nat.le_of_lt fewer)
  | case5 _ _ _ _ _ _ _ _ fewer => exact pending_pushBack fewer
  | case6 _ _ _ _ _ _ _ _ fewer => exact Nat.le_of_lt fewer

/-- The first children of a production whose opening token is current, and their span. An
expression and a list of them begin with a production of their own. -/
def open_ (read : Reader σ) (rule : Rule) (callee? : Option Tree) (p : Parser σ) :
    Except SyntaxError (Matcher × Span) × Parser σ :=
  let m := Matcher.ofRule rule
  let opening := p.current
  match callee? with
  | some callee =>
    let place := (p.previous?.map (·.span)).getD opening.span
    let seeded := do seed (← seed m ⟨callee, place⟩) (opening.map .leaf)
    (seeded.map fun m => (m, place.merge opening.span), p)
  | none =>
    if rule = .expression ∨ rule = .expressionList then
      match Rule.opened? (some rule) m.stage opening.value.kind with
      | none => (.error (.unexpectedToken (.startOf rule) opening.value opening.span), p)
      | some first =>
        match (read first none p).val with
        | (.error e, p) => (.error e, p)
        | (.ok tree, p) => ((seed m tree).map fun m => (m, opening.span.merge tree.span), p)
    else ((seed m (opening.map .leaf)).map fun m => (m, opening.span), p)

theorem pending_open (read : Reader σ) (rule : Rule) (callee? : Option Tree) (p : Parser σ) :
    (open_ read rule callee? p).2.pending ≤ p.pending := by
  unfold open_
  dsimp only
  split
  · exact Nat.le_refl _
  · split
    · split
      · exact Nat.le_refl _
      · next first _ =>
        have fewer := (read first none p).property
        split <;> next same => simpa [same] using fewer
    · exact Nat.le_refl _

/-- Close the reading of a production, if nothing is missing. -/
def complete (m : Matcher) (span : Span) (p : Parser σ) : Outcome σ :=
  if m.isComplete then
    (.ok ⟨m.toTree, span⟩,
      { p with notes := .matched m.rule m.taken.length m.closed :: p.notes })
  else
    let found := p.lookahead
    (.error (.incompleteRule m.rule (expectation m) found.value found.span), p)

/-- Read a production whose opening token is current. -/
def build (read : Reader σ) (rule : Rule) (callee? : Option Tree) (p : Parser σ) : Outcome σ :=
  match open_ read rule callee? p with
  | (.error e, p) => (.error e, p)
  | (.ok (m, span), p) =>
    match fill read m span p with
    | (.error e, p) => (.error e, p)
    | (.ok (m, span), p) => complete m span p

theorem pending_build (read : Reader σ) (rule : Rule) (callee? : Option Tree) (p : Parser σ) :
    (build read rule callee? p).2.pending ≤ p.pending := by
  have opened := pending_open read rule callee? p
  unfold build
  split
  · next same => simpa [same] using opened
  · next m span q same =>
    rw [same] at opened
    have filled := pending_fill read m span q
    split
    · next same' => rw [same'] at filled; exact Nat.le_trans filled opened
    · next same' =>
      rw [same'] at filled
      refine Nat.le_trans ?_ (Nat.le_trans filled opened)
      unfold complete
      split <;> exact Nat.le_refl _

/-- A reader that lets `room` more productions be open at once. -/
def reader : Nat → Reader σ
  | 0 => fun _ _ p => ⟨(.error (.maxRecursionDepth p.limit), p), Nat.le_refl _⟩
  | room + 1 => fun rule callee? p =>
    ⟨build (reader room) rule callee? p, pending_build (reader room) rule callee? p⟩

/-- A failure of the supply outweighs the error it led to. It is reported once. -/
def finish {α : Type} (out : Except SyntaxError α × Parser σ) : Except SyntaxError α × Parser σ :=
  match out.2.failure? with
  | some e => (.error (.lexical e), { out.2 with failure? := none })
  | none => out

/-- Read what the next token opens outside of any production, or the token itself. -/
def outermost (p : Parser σ) : Except SyntaxError (Option (Located Tree)) × Parser σ :=
  let p := p.advance
  if p.current.value.isEnd then (.ok none, p)
  else
    match Rule.opened? none .initial p.current.value.kind with
    | none => (.ok (some (p.current.map .leaf)), p)
    | some rule =>
      let out := (reader p.limit rule none p).val
      (out.1.map some, out.2)

/-- Read one construct: a production named by the caller, or what the next token opens. Nothing
is read when the input has ended. -/
def parseFrom (initial? : Option Rule) (p : Parser σ) :
    Except SyntaxError (Option Tree) × Parser σ :=
  let out := match initial? with
    | none => p.outermost
    | some rule =>
      let p := p.advance
      if p.current.value.isEnd then (.ok none, p)
      else
        let out := (reader p.limit rule none p).val
        (out.1.map some, out.2)
  finish (out.1.map fun tree? => tree?.map (·.value), out.2)

/-- Read the next construct as if an `enclosing` production had just begun. -/
def parseWithin (enclosing : Rule) (p : Parser σ) : Except SyntaxError (Option Tree) × Parser σ :=
  let out := child (reader p.limit) (.ofRule enclosing) p
  finish (out.1.map fun tree? => tree?.map (·.value), out.2.2)

/-- Read a class, which has to end the input. -/
def parseClass (p : Parser σ) : Except SyntaxError Tree × Parser σ :=
  let out := p.outermost
  finish <|
    match out.1 with
    | .error e => (.error e, out.2)
    | .ok none => (.error .emptyInput, out.2)
    | .ok (some ⟨.leaf token, span⟩) =>
      (.error (.unexpectedToken (.field (.token (.keyword .class_))) token span), out.2)
    | .ok (some ⟨tree, _⟩) =>
      let p := out.2.advance
      if p.current.value.isEnd then (.ok tree, p)
      else (.error (.trailingInput p.current.value p.current.span), p)

def events (p : Parser σ) : List Event := p.notes.reverse.map ParserNote.event

end Parser

/-- Read a class straight from its text. -/
def parseText (text : List Char) : Except SyntaxError Tree × Parser Scanner :=
  (Parser.ofSupply (Scanner.ofText text) Limits.parseDepth).parseClass

end NandTools
