import NandTools.Proofs.Matcher.Language
import NandTools.Proofs.Parser.Awaits
import NandTools.Proofs.Tree.Shape

/-! Whatever the tolerated grammar derives is read as it is derived, as long as there is room for
the productions that are open at once. -/
namespace NandTools

open NandTools.Source

namespace Rule

theorem admitted_of_tolerated {rule : Rule} {w : List Symbol} (fits : rule.tolerated.Matches w) :
    rule.admitted.Matches w := by
  cases rule with
  | term => exact .right (.right (.right fits))
  | expressionList =>
    obtain ⟨u, v, rfl, first, more⟩ := Pattern.matches_seq_iff.mp fits
    exact .seq (.left first) more
  | _ => exact fits

/-- A production begins with a token, but for expressions, lists of them and calls as terms. -/
private def beginsWith (rule : Rule) : Symbol → Bool
  | .kind _ => rule != expression && rule != expressionList
  | .rule r => rule == expression || rule == expressionList || rule == term && r == subroutineCall

private theorem beginsWith_of_matches {rule : Rule} {s : Symbol} {rest : List Symbol}
    (fits : rule.tolerated.Matches (s :: rest)) : rule.beginsWith s = true := by
  have checked : all.all (fun rule => rule.tolerated.symbols.all fun s =>
      rule.tolerated.after s == .never || rule.beginsWith s) = true := by
    decide +kernel
  exact fits.head (List.all_eq_true.mp checked rule rule.mem_all)

/-- A call stands alone in its term. -/
private theorem term_of_call {s : Symbol} {rest : List Symbol}
    (fits : term.tolerated.Matches (s :: rest)) :
    (s = .rule subroutineCall → rest = []) ∧ .rule subroutineCall ∉ rest := by
  have checked : (term.tolerated.symbols.all fun s => term.tolerated.after s == .never ||
      (s != .rule subroutineCall || term.tolerated.after s == .empty) &&
        !(term.tolerated.after s).symbols.contains (.rule subroutineCall)) = true := by
    decide +kernel
  have head := fits.head checked
  rw [Bool.and_eq_true, Bool.or_eq_true, bne_iff_ne, beq_iff_eq] at head
  have after := Pattern.matches_after_iff.mpr fits
  constructor
  · intro call
    rw [head.1.resolve_left (fun other => other call)] at after
    exact Pattern.matches_empty_iff.mp after
  · intro member
    have listed := after.mem_symbols _ member
    simp [listed] at head

/-- A call begins with its name, which a dot or a parenthesis follows. -/
private theorem name_of_call {w : List Symbol} (fits : subroutineCall.tolerated.Matches w) :
    ∃ sign rest, w = .kind .identifier :: .kind (.sign sign) :: rest ∧
      (sign = .dot ∨ sign = .lparen) := by
  obtain ⟨_, _, rfl, name, more⟩ := Pattern.matches_one_seq_iff.mp fits
  obtain rfl := Acceptance.admits_identifier_iff.mp name
  obtain ⟨u, v, rfl, path, arguments⟩ := Pattern.matches_seq_iff.mp more
  rcases Pattern.matches_maybe_iff.mp path with path | rfl
  · obtain ⟨_, _, rfl, dot, _⟩ := Pattern.matches_one_seq_iff.mp path
    obtain rfl := Acceptance.admits_token_iff.mp dot
    exact ⟨.dot, _, rfl, .inl rfl⟩
  · obtain ⟨_, _, rfl, opening, _⟩ := Pattern.matches_one_seq_iff.mp arguments
    obtain rfl := Acceptance.admits_token_iff.mp opening
    exact ⟨.lparen, _, rfl, .inr rfl⟩

end Rule

namespace Tree

theorem symbol_of_bare {a b : Tree} (alike : a.bare = b.bare) : a.symbol = b.symbol := by
  cases a <;> cases b <;> simp_all [bare, symbol]

/-- Nothing inside a derived construct is taken for the end of the input. -/
theorem Derivation.inside {tree : Tree} (derived : tree.Derivation Rule.tolerated)
    (notEnd : tree.symbol ≠ .kind .endOfInput) : ∀ token ∈ tree.tokens, token.isEnd = false := by
  have checked : Rule.all.all (fun rule =>
      !rule.tolerated.symbols.contains (.kind .endOfInput)) = true := by
    decide +kernel
  induction derived with
  | leaf token =>
    intro other member
    rw [List.mem_singleton.mp member]
    rcases token with ⟨kind, literal⟩
    cases kind <;> first | rfl | exact absurd rfl notEnd
  | @branch rule children closed fits parts ih =>
    intro token member
    rw [tokens_branch] at member
    obtain ⟨child, within, member⟩ := List.mem_flatMap.mp member
    refine ih child within (fun same => ?_) token member
    have listed := fits.mem_symbols child.symbol (List.mem_map_of_mem within)
    have absent := List.all_eq_true.mp checked rule rule.mem_all
    rw [same] at listed
    simp [listed] at absent

end Tree

namespace Parser

variable {σ : Type} [TokenSupply σ]

/-- The outcome is this tree, but for closing marks, and these tokens are left. -/
def Delivers (out : Outcome σ) (tree : Tree) (after : List Token) : Prop :=
  ∃ located p', out = (.ok located, p') ∧ located.value.bare = tree.bare ∧ p'.Awaits after

/-- Nothing is left after a construct, or a token that stops it. -/
def Stopped (rule : Rule) (after : List Token) : Prop :=
  ∀ next ∈ after.head?, rule.stops next.kind = true

/-- The reader reads every tree that needs no more than `room`: from its first token, or, of a call
whose name has been read, from its second. -/
structure Completes (room : Nat) (read : Reader σ) : Prop where
  whole : ∀ {rule : Rule} {children : List Tree} {closed : Bool} {first : Token}
    {rest after : List Token} {p : Parser σ},
    (Tree.branch rule children closed).Derivation Rule.tolerated →
    (Tree.branch rule children closed).height ≤ room →
    children.flatMap Tree.tokens = first :: rest → Stopped rule after →
    p.current.value = first → p.Awaits (rest ++ after) →
    Delivers (read rule none p).val (.branch rule children closed) after
  named : ∀ {name second : Token} {children : List Tree} {closed : Bool} {rest after : List Token}
    {p : Parser σ},
    (Tree.branch .subroutineCall (.leaf name :: children) closed).Derivation Rule.tolerated →
    (Tree.branch .subroutineCall (.leaf name :: children) closed).height ≤ room →
    children.flatMap Tree.tokens = second :: rest →
    p.current.value = second → p.Awaits (rest ++ after) →
    Delivers (read .subroutineCall (some (.leaf name)) p).val
      (.branch .subroutineCall (.leaf name :: children) closed) after

variable {read : Reader σ} {m m' : Matcher} {word : List Symbol} {p : Parser σ}

theorem child_of_leaf {token : Token} (current : p.advance.current.value = token)
    (inside : token.isEnd = false) (plain : Rule.opened? (some m.rule) m.stage token.kind = none) :
    child read m p = (.ok (some ⟨.leaf token, p.advance.current.span⟩), m, p.advance) := by
  rw [Token.isEnd] at inside
  unfold child
  simp only [current, Token.isEnd, inside, plain, Bool.false_eq_true, if_false]
  rw [Located.map, current]

theorem child_of_end (ended : p.advance.current.value.isEnd = true) :
    child read m p = (.ok none, m, p.advance) := by
  unfold child
  simp only [ended, if_true]

variable (read) in
theorem child_of_branch {token : Token} {rule : Rule} {tree : Tree} {after : List Token}
    (current : p.advance.current.value = token) (inside : token.isEnd = false)
    (opened : Rule.opened? (some m.rule) m.stage token.kind = some rule)
    (delivered : Delivers (read rule (handOver rule m).1 p.advance).val tree after) :
    ∃ located p', child read m p = (.ok (some located), (handOver rule m).2, p') ∧
      located.value.bare = tree.bare ∧ p'.Awaits after := by
  obtain ⟨located, p', same, alike, awaits⟩ := delivered
  refine ⟨located, p', ?_, alike, awaits⟩
  unfold child
  simp only [current, inside, opened, Bool.false_eq_true, if_false, same]
  rfl

variable {m'' : Matcher} {span : Span} {p' : Parser σ} {tree : Located Tree}

/-- What stands after a construct in its production stops it. -/
theorem stopped_of_siblings (reading : m.Reads word) {rule : Rule} {children trees : List Tree}
    {closed : Bool} {after : List Token}
    (taken : m.offer? (.branch rule children closed) = some m')
    (fits : m.rule.tolerated.Matches (word ++ .rule rule :: trees.map Tree.symbol))
    (derived : ∀ tree ∈ trees, tree.Derivation Rule.tolerated) (stopped : Stopped m.rule after) :
    Stopped rule (trees.flatMap Tree.tokens ++ after) := by
  have admitted := Rule.admitted_of_tolerated fits
  intro next member
  cases trees with
  | nil => exact reading.stops_of_last taken admitted (stopped next member)
  | cons sibling trees =>
    obtain ⟨second, others, spelled, begins⟩ := (derived sibling List.mem_cons_self).exists_first
    rw [List.flatMap_cons, spelled] at member
    obtain rfl := Option.some.inj member
    exact reading.stops_of_next taken admitted _ begins

/-- The next child is read whole, unless it is a call that hands its name over. -/
theorem child_delivers {room : Nat} (ready : Completes room read) (reading : m.Reads word)
    {tree : Tree} {trees : List Tree} {after : List Token}
    (fits : m.rule.tolerated.Matches (word ++ (tree :: trees).map Tree.symbol))
    (derived : ∀ part ∈ tree :: trees, part.Derivation Rule.tolerated) (shallow : tree.height ≤ room)
    (ordinary : ¬ (tree.symbol = .rule .subroutineCall ∧ m.rule = .term))
    (stopped : Stopped m.rule after)
    (awaits : p.Awaits ((tree :: trees).flatMap Tree.tokens ++ after)) :
    ∃ located p', child read m p = (.ok (some located), m, p') ∧ located.value.bare = tree.bare ∧
      p'.Awaits (trees.flatMap Tree.tokens ++ after) := by
  obtain ⟨_, taken⟩ := reading.exists_offer (Rule.admitted_of_tolerated fits)
  have whole := derived tree List.mem_cons_self
  cases tree with
  | leaf token =>
    obtain ⟨current, inside, ahead, _⟩ := awaits.advance_cons
    exact ⟨_, _, child_of_leaf current inside (reading.opened_leaf taken), rfl, ahead⟩
  | branch rule children closed =>
    obtain ⟨token, rest, tokens, opening⟩ := whole.exists_first
    have apart : ¬ (rule = .subroutineCall ∧ m.rule = .term) :=
      fun both => ordinary ⟨congrArg Symbol.rule both.1, both.2⟩
    have opened := reading.opened_branch taken (fun both => apart both.symm) token.kind opening
    have kept : handOver rule m = (none, m) := if_neg apart
    rw [List.flatMap_cons, tokens, List.cons_append, List.cons_append, List.append_assoc] at awaits
    obtain ⟨current, inside, ahead, _⟩ := awaits.advance_cons
    rw [Tree.tokens_branch] at tokens
    have stops := stopped_of_siblings reading taken fits
      (fun other member => derived other (List.mem_cons_of_mem _ member)) stopped
    have delivered := ready.whole whole shallow tokens stops current ahead
    rw [← show (handOver rule m).1 = none from congrArg Prod.fst kept] at delivered
    obtain ⟨located, p', found, alike, left⟩ :=
      child_of_branch read current inside opened delivered
    rw [show (handOver rule m).2 = m from congrArg Prod.snd kept] at found
    exact ⟨located, p', found, alike, left⟩

/-- A construct that has been begun is filled with the rest of its children. -/
theorem fill_delivers {room : Nat} (span : Span) (ready : Completes room read) (reading : m.Reads word)
    (begun : word ≠ []) {trees : List Tree} {after : List Token}
    (fits : m.rule.tolerated.Matches (word ++ trees.map Tree.symbol))
    (parts : ∀ tree ∈ trees, tree.Derivation Rule.tolerated ∧ tree.height ≤ room)
    (ordinary : m.rule = .term → .rule .subroutineCall ∉ trees.map Tree.symbol)
    (stopped : Stopped m.rule after) (awaits : p.Awaits (trees.flatMap Tree.tokens ++ after)) :
    ∃ m' span' p', fill read m span p = (.ok (m', span'), p') ∧ m'.rule = m.rule ∧
      m'.isComplete = true ∧ m'.children.map Tree.bare = (m.children ++ trees).map Tree.bare ∧
      p'.Awaits after := by
  induction trees generalizing m word p span with
  | nil =>
    have complete : m.isComplete = true := by
      rw [reading.isComplete_iff]
      simpa using Rule.admitted_of_tolerated fits
    rw [List.flatMap_nil, List.nil_append] at awaits
    cases closed : m.closed with
    | true => exact ⟨m, span, p, fill_closed closed, rfl, complete, by simp, awaits⟩
    | false =>
      cases after with
      | nil =>
        obtain ⟨ended, awaits⟩ := awaits.advance_nil
        exact ⟨m, span, _, fill_ended closed (child_of_end ended), rfl, complete, by simp, awaits⟩
      | cons token rest =>
        obtain ⟨current, inside, _, back⟩ := awaits.advance_cons
        obtain ⟨plain, refused⟩ := reading.refuses begun complete closed (stopped token rfl)
        exact ⟨m, span, _, fill_refused closed (child_of_leaf current inside plain) refused rfl, rfl,
          complete, by simp, back⟩
  | cons tree trees ih =>
    have unclosed := reading.unclosed (Rule.admitted_of_tolerated fits)
    have apart : ¬ (tree.symbol = .rule .subroutineCall ∧ m.rule = .term) := by
      rintro ⟨call, inTerm⟩
      refine ordinary inTerm ?_
      rw [List.map_cons, call]
      exact List.mem_cons_self
    obtain ⟨located, p', found, alike, ahead⟩ := child_delivers ready reading fits
      (fun _ member => (parts _ member).1) (parts tree List.mem_cons_self).2 apart stopped awaits
    rw [List.map_cons, ← Tree.symbol_of_bare alike] at fits
    obtain ⟨m'', taken⟩ := reading.exists_offer (Rule.admitted_of_tolerated fits)
    have sameRule := (Matcher.offer_eq_some taken).1
    rw [List.append_cons, ← sameRule] at fits
    rw [← sameRule] at ordinary stopped
    obtain ⟨m', span', p', filled, rule, complete, children, left⟩ :=
      ih _ (reading.take taken) (by simp) fits
        (fun other member => parts other (List.mem_cons_of_mem tree member))
        (fun inTerm member => ordinary inTerm (List.mem_cons_of_mem _ member)) stopped ahead
    refine ⟨m', span', p', (fill_taken unclosed found taken).trans filled, rule.trans sameRule,
      complete, ?_, left⟩
    rw [children, Matcher.children_of_offer taken]
    simp [alike]

theorem seed_taken (taken : m.offer? tree.value = some m') : seed m tree = .ok m' := by
  rw [seed, taken]

omit [TokenSupply σ] in
theorem seed_current {token : Token} (current : p.current.value = token)
    (taken : m.offer? (.leaf token) = some m') : seed m (p.current.map .leaf) = .ok m' := by
  refine seed_taken ?_
  rw [Located.map, current]
  exact taken

theorem open_of_leaf {rule : Rule} {token : Token}
    (plain : ¬ (rule = .expression ∨ rule = .expressionList)) (current : p.current.value = token)
    (taken : (Matcher.ofRule rule).offer? (.leaf token) = some m) :
    open_ read rule none p = (.ok (m, p.current.span), p) := by
  have seeded := seed_current current taken
  unfold open_
  simp only [plain, if_false, seeded]
  rfl

theorem open_of_callee {name token : Token} (current : p.current.value = token)
    (begun : (Matcher.ofRule .subroutineCall).offer? (.leaf name) = some m)
    (taken : m.offer? (.leaf token) = some m') :
    open_ read .subroutineCall (some (.leaf name)) p =
      (.ok (m', ((p.previous?.map (·.span)).getD p.current.span).merge p.current.span), p) := by
  have seeded := seed_current current taken
  have named : ∀ span, seed (.ofRule .subroutineCall) ⟨.leaf name, span⟩ = .ok m :=
    fun _ => seed_taken begun
  unfold open_
  simp only [named]
  change ((seed m (p.current.map .leaf)).map _, p) = _
  rw [seeded]
  rfl

theorem build_delivers {rule : Rule} {callee? : Option Tree} {trees : List Tree} {closed : Bool}
    {after : List Token} {q : Parser σ} (opened : open_ read rule callee? p = (.ok (m, span), q))
    (sameRule : m.rule = rule)
    (filled : ∃ m' span' q', fill read m span q = (.ok (m', span'), q') ∧ m'.rule = m.rule ∧
      m'.isComplete = true ∧ m'.children.map Tree.bare = trees.map Tree.bare ∧ q'.Awaits after) :
    Delivers (build read rule callee? p) (.branch rule trees closed) after := by
  obtain ⟨m', span', q', filled, kept, complete, children, awaits⟩ := filled
  refine ⟨⟨m'.toTree, span'⟩,
    { q' with notes := .matched m'.rule m'.taken.length m'.closed :: q'.notes }, ?_, ?_, awaits⟩
  · rw [build, opened]
    simp only [filled, Parser.complete, complete, if_true]
  · rw [Matcher.toTree, Tree.bare_branch, Tree.bare_branch, children, kept, sameRule]

/-- A construct that begins with a token. -/
theorem build_of_leaf {room : Nat} (ready : Completes room read) {rule : Rule} {token : Token}
    {trees : List Tree} {closed : Bool} {after : List Token}
    (fits : rule.tolerated.Matches ((Tree.leaf token :: trees).map Tree.symbol))
    (parts : ∀ tree ∈ trees, tree.Derivation Rule.tolerated ∧ tree.height ≤ room)
    (stopped : Stopped rule after) (current : p.current.value = token)
    (awaits : p.Awaits (trees.flatMap Tree.tokens ++ after)) :
    Delivers (build read rule none p) (.branch rule (.leaf token :: trees) closed) after := by
  have plain : ¬ (rule = .expression ∨ rule = .expressionList) := by
    have begins := Rule.beginsWith_of_matches fits
    rintro (rfl | rfl) <;> cases begins
  obtain ⟨m, taken⟩ := (Matcher.Reads.start rule).exists_offer (Rule.admitted_of_tolerated fits)
  obtain ⟨sameRule, _⟩ := Matcher.offer_eq_some taken
  refine build_delivers (open_of_leaf plain current taken) sameRule ?_
  have children : m.children = [.leaf token] := Matcher.children_of_offer taken
  have filled := fill_delivers p.current.span ready (.take (.start rule) taken) (by simp)
    (by rw [sameRule]; exact fits) parts (fun inTerm => ?_) (by rw [sameRule]; exact stopped) awaits
  · rw [children] at filled
    exact filled
  · rw [sameRule] at inTerm
    subst inTerm
    exact (Rule.term_of_call fits).2

/-- An expression or a list of them begins with a construct of its own, which the same token opens. -/
theorem build_of_branch {room : Nat} (ready : Completes room read) {rule : Rule} {child : Tree}
    {trees : List Tree} {closed : Bool} {first : Token} {rest after : List Token}
    (beginning : rule = .expression ∨ rule = .expressionList)
    (derived : (Tree.branch rule (child :: trees) closed).Derivation Rule.tolerated)
    (shallow : ∀ tree ∈ child :: trees, tree.height ≤ room)
    (spelled : (child :: trees).flatMap Tree.tokens = first :: rest) (stopped : Stopped rule after)
    (current : p.current.value = first) (awaits : p.Awaits (rest ++ after)) :
    Delivers (build read rule none p) (.branch rule (child :: trees) closed) after := by
  obtain ⟨fits, parts⟩ := derived.fits
  have begins := Rule.beginsWith_of_matches fits
  have inTerm : rule ≠ .term := by rintro rfl; simp at beginning
  obtain ⟨_, taken⟩ := (Matcher.Reads.start rule).exists_offer (Rule.admitted_of_tolerated fits)
  obtain ⟨token, others, tokens, opening⟩ := (parts child List.mem_cons_self).exists_first
  cases child with
  | leaf token => rcases beginning with rfl | rfl <;> cases begins
  | branch r children mark =>
    have opened := (Matcher.Reads.start rule).opened_branch taken (fun both => inTerm both.1)
      token.kind opening
    rw [List.flatMap_cons, tokens, List.cons_append] at spelled
    obtain ⟨rfl, rfl⟩ := List.cons.inj spelled
    rw [List.append_assoc] at awaits
    have stops := stopped_of_siblings (.start rule) taken fits
      (fun other member => parts other (List.mem_cons_of_mem _ member)) stopped
    rw [Tree.tokens_branch] at tokens
    obtain ⟨located, p', same, alike, ahead⟩ := ready.whole (parts _ List.mem_cons_self)
      (shallow _ List.mem_cons_self) tokens stops current awaits
    have symbol := Tree.symbol_of_bare alike
    rw [List.map_cons, ← symbol] at fits
    obtain ⟨m, begun⟩ := (Matcher.Reads.start rule).exists_offer (Rule.admitted_of_tolerated fits)
    obtain ⟨sameRule, _⟩ := Matcher.offer_eq_some begun
    have opens : open_ read rule none p = (.ok (m, p.current.span.merge located.span), p') := by
      unfold open_
      simp only [beginning, if_true, current]
      rw [show Rule.opened? (some rule) (Matcher.ofRule rule).stage token.kind = some r from opened]
      simp only [same, seed_taken begun]
      rfl
    refine build_delivers opens sameRule ?_
    have filled := fill_delivers (p.current.span.merge located.span) ready (.take (.start rule) begun)
      (by simp) (by rw [sameRule]; exact fits)
      (fun tree member => ⟨parts tree (List.mem_cons_of_mem _ member),
        shallow tree (List.mem_cons_of_mem _ member)⟩)
      (fun isTerm => absurd (sameRule.symm.trans isTerm) inTerm) (by rw [sameRule]; exact stopped) ahead
    have children : m.children = [located.value] := Matcher.children_of_offer begun
    rw [children] at filled
    simpa [alike] using filled

private theorem leaf_of_symbol {tree : Tree} {kind : TokenKind} (same : tree.symbol = .kind kind) :
    ∃ token, tree = .leaf token ∧ token.kind = kind := by
  cases tree with
  | leaf token => exact ⟨token, rfl, Symbol.kind.inj same⟩
  | branch rule children closed => cases same

private theorem admitted_name_call :
    Rule.term.admitted.Matches [.kind .identifier, .rule .subroutineCall] :=
  .right (.right (.left (.seq (.one rfl) (.one rfl))))

/-- A term that has read a name only waits for what may follow it. -/
private theorem term_of_name {name : Token} (isName : name.kind = .identifier) :
    ∃ m, (Matcher.ofRule .term).offer? (.leaf name) = some m ∧ m.Reads [.kind .identifier] ∧
      m.rule = .term ∧ m.closed = false ∧ m.stage = .afterIdentifier ∧
      m.pop = (some (.leaf name), { m with taken := [] }) := by
  have symbol : (Tree.leaf name).symbol = .kind .identifier := by rw [Tree.symbol, isName]
  have fits := admitted_name_call
  rw [← symbol] at fits
  obtain ⟨m, taken⟩ := (Matcher.Reads.start .term).exists_offer fits
  obtain ⟨inTerm, only, _⟩ := Matcher.offer_eq_some taken
  have inTerm : m.rule = .term := inTerm
  have reading : m.Reads [.kind .identifier] := symbol ▸ .take (.start .term) taken
  refine ⟨m, taken, reading, inTerm, ?_, ?_, ?_⟩
  · have fitting : m.rule.admitted.Matches ([.kind .identifier] ++ [.rule .subroutineCall]) := by
      rw [inTerm]
      exact admitted_name_call
    exact reading.unclosed fitting
  · have stepped := Matcher.offer_posture (Matcher.regular_ofRule .term) (.leaf name)
    have stage : ((Posture.start .term).step .term (.kind .identifier)).map (·.stage) =
        some .afterIdentifier := by decide
    rw [symbol, taken] at stepped
    have stepped : some m.posture = (Posture.start .term).step .term (.kind .identifier) := stepped
    rw [← stepped] at stage
    exact Option.some.inj stage
  · rw [Matcher.pop, only]
    rfl

/-- The call that takes the name over closes the term. -/
private theorem exists_offer_call {name : Tree} (reading : m.Reads [.kind .identifier])
    (inTerm : m.rule = .term) (popped : m.pop = (some name, { m with taken := [] })) {call : Tree}
    (symbol : call.symbol = .rule .subroutineCall) :
    ∃ m', Matcher.offer? { m with taken := [] } call = some m' ∧ m'.rule = .term ∧
      m'.closed = true ∧ m'.isComplete = true ∧ m'.children = [call] := by
  have emptied : Matcher.Reads { m with taken := [] } [.kind .identifier] := by
    have popping := reading.pop
    rw [popped] at popping
    exact popping
  have fitting : m.rule.admitted.Matches ([.kind .identifier] ++ [call.symbol]) := by
    rw [inTerm, symbol]
    exact admitted_name_call
  obtain ⟨m', taken⟩ := emptied.exists_offer fitting
  have sameRule : m'.rule = m.rule := (Matcher.offer_eq_some taken).1
  refine ⟨m', taken, sameRule.trans inTerm, emptied.closed_of_call inTerm taken symbol, ?_,
    Matcher.children_of_offer taken⟩
  rw [(emptied.take taken).isComplete_iff, sameRule]
  exact fitting

/-- A term that is a call begins with the name of the call. -/
theorem build_of_call {room : Nat} (ready : Completes room read) {call : Tree}
    {trees : List Tree} {closed : Bool} {first : Token} {rest after : List Token}
    (calls : call.symbol = .rule .subroutineCall)
    (derived : (Tree.branch .term (call :: trees) closed).Derivation Rule.tolerated)
    (shallow : call.height ≤ room)
    (spelled : (call :: trees).flatMap Tree.tokens = first :: rest)
    (current : p.current.value = first) (awaits : p.Awaits (rest ++ after)) :
    Delivers (build read .term none p) (.branch .term (call :: trees) closed) after := by
  obtain ⟨fits, parts⟩ := derived.fits
  have alone : trees = [] := List.map_eq_nil_iff.mp ((Rule.term_of_call fits).1 calls)
  subst alone
  cases call with
  | leaf token => cases calls
  | branch rule children mark =>
    cases calls
    have derivedCall := parts _ List.mem_cons_self
    obtain ⟨sign, others, word, opening⟩ := Rule.name_of_call derivedCall.fits.1
    obtain ⟨_, _, rfl, nameSymbol, word⟩ := List.map_eq_cons_iff.mp word
    obtain ⟨_, more, rfl, signSymbol, _⟩ := List.map_eq_cons_iff.mp word
    obtain ⟨name, rfl, isName⟩ := leaf_of_symbol nameSymbol
    obtain ⟨second, rfl, isSign⟩ := leaf_of_symbol signSymbol
    simp only [List.flatMap_cons, List.flatMap_nil, Tree.tokens_branch, Tree.tokens_leaf,
      List.append_nil, List.singleton_append] at spelled
    obtain ⟨rfl, rfl⟩ := List.cons.inj spelled
    obtain ⟨m, taken, reading, inTerm, unclosed, stage, popped⟩ := term_of_name isName
    refine build_delivers (open_of_leaf (by simp) current taken) inTerm ?_
    obtain ⟨advanced, inside, ahead, _⟩ := awaits.advance_cons
    have opened : Rule.opened? (some m.rule) m.stage second.kind = some .subroutineCall := by
      rw [inTerm, stage, isSign]
      rcases opening with rfl | rfl <;> rfl
    have handed : handOver .subroutineCall m = (some (.leaf name), { m with taken := [] }) := by
      rw [handOver, if_pos ⟨rfl, inTerm⟩, popped]
    have delivered := ready.named (p := p.advance) derivedCall shallow (by simp) advanced ahead
    rw [← show (handOver .subroutineCall m).1 = some (.leaf name) from congrArg Prod.fst handed]
      at delivered
    obtain ⟨located, p', found, alike, left⟩ :=
      child_of_branch read advanced inside opened delivered
    obtain ⟨m', ended, kept, closed, complete, children⟩ :=
      exists_offer_call reading inTerm popped (Tree.symbol_of_bare alike)
    rw [show (handOver .subroutineCall m).2 = { m with taken := [] } from congrArg Prod.snd handed]
      at found
    refine ⟨m', _, p', (fill_taken unclosed found ended).trans (fill_closed closed),
      kept.trans inTerm.symm, complete, ?_, left⟩
    rw [children, List.map_singleton, List.map_singleton, alike]

/-- A call whose name has been read before. -/
theorem build_of_callee {room : Nat} (ready : Completes room read) {name second : Token}
    {trees : List Tree} {closed : Bool} {rest after : List Token}
    (derived : (Tree.branch .subroutineCall (.leaf name :: trees) closed).Derivation Rule.tolerated)
    (shallow : ∀ tree ∈ trees, tree.height ≤ room)
    (spelled : trees.flatMap Tree.tokens = second :: rest)
    (current : p.current.value = second) (awaits : p.Awaits (rest ++ after)) :
    Delivers (build read .subroutineCall (some (.leaf name)) p)
      (.branch .subroutineCall (.leaf name :: trees) closed) after := by
  obtain ⟨fits, parts⟩ := derived.fits
  obtain ⟨sign, others, word, _⟩ := Rule.name_of_call fits
  obtain ⟨_, signs⟩ := List.cons.inj word
  obtain ⟨_, more, rfl, signSymbol, _⟩ := List.map_eq_cons_iff.mp signs
  obtain ⟨token, rfl, _⟩ := leaf_of_symbol signSymbol
  obtain ⟨rfl, rfl⟩ := List.cons.inj spelled
  have admitted := Rule.admitted_of_tolerated fits
  obtain ⟨first, begun⟩ := (Matcher.Reads.start .subroutineCall).exists_offer admitted
  have opening := Matcher.Reads.take (.start .subroutineCall) begun
  have sameRule : first.rule = .subroutineCall := (Matcher.offer_eq_some begun).1
  rw [← sameRule] at admitted
  obtain ⟨m, taken⟩ := opening.exists_offer admitted
  have kept : m.rule = .subroutineCall := (Matcher.offer_eq_some taken).1.trans sameRule
  refine build_delivers (open_of_callee current begun taken) kept ?_
  have children : m.children = [.leaf name, .leaf token] := by
    rw [Matcher.children_of_offer taken, Matcher.children_of_offer begun]
    rfl
  have filled := fill_delivers
    (((p.previous?.map (·.span)).getD p.current.span).merge p.current.span) ready
    (opening.take taken) (by simp) (by rw [kept]; exact fits)
    (fun tree member => ⟨parts tree (by simp [member]), shallow tree (List.mem_cons_of_mem _ member)⟩)
    (fun inTerm => by rw [kept] at inTerm; cases inTerm) (fun _ _ => by rw [kept]; rfl) awaits
  rw [children] at filled
  exact filled

theorem reader_completes (room : Nat) : Completes room (reader room : Reader σ) := by
  induction room with
  | zero =>
    constructor
    · intro rule children closed _ _ _ _ _ shallow
      rw [Tree.height] at shallow
      omega
    · intro name second children closed _ _ _ _ shallow
      rw [Tree.height] at shallow
      omega
  | succ room ih =>
    have inner : ∀ {rule : Rule} {children : List Tree} {closed : Bool},
        (Tree.branch rule children closed).height ≤ room + 1 →
          ∀ tree ∈ children, tree.height ≤ room := by
      intro rule children closed shallow tree member
      rw [Tree.height] at shallow
      have := Tree.height_le_tallest member
      omega
    constructor
    · intro rule children closed first rest after p derived shallow spelled stopped current awaits
      obtain ⟨fits, parts⟩ := derived.fits
      cases children with
      | nil => cases spelled
      | cons child trees =>
        have begins := Rule.beginsWith_of_matches fits
        cases child with
        | leaf token =>
          obtain ⟨rfl, rfl⟩ := List.cons.inj spelled
          refine build_of_leaf ih fits (fun tree member => ?_) stopped current awaits
          exact ⟨parts tree (List.mem_cons_of_mem _ member),
            inner shallow tree (List.mem_cons_of_mem _ member)⟩
        | branch r children mark =>
          simp only [Tree.symbol, Rule.beginsWith, Bool.or_eq_true, Bool.and_eq_true, beq_iff_eq]
            at begins
          rcases begins with beginning | ⟨rfl, rfl⟩
          · exact build_of_branch ih beginning derived (inner shallow) spelled stopped current awaits
          · exact build_of_call ih rfl derived (inner shallow _ List.mem_cons_self) spelled current
              awaits
    · intro name second children closed rest after p derived shallow spelled current awaits
      exact build_of_callee ih derived
        (fun tree member => inner shallow tree (List.mem_cons_of_mem _ member)) spelled current awaits

/-- A class that the parser has ahead of it is read as it is derived. -/
theorem parseClass_delivers {tree : Tree} (derived : tree.Derivation Rule.tolerated)
    (isClass : tree.isRule .class_ = true) (shallow : tree.height ≤ p.limit)
    (awaits : p.Awaits tree.tokens) :
    ∃ parsed, p.parseClass.1 = .ok parsed ∧ parsed.bare = tree.bare := by
  cases tree with
  | leaf token => cases isClass
  | branch rule children closed =>
    obtain rfl : rule = .class_ := by simpa [Tree.isRule, Tree.rule?] using isClass
    obtain ⟨first, rest, tokens, opening⟩ := derived.exists_first
    have opening : first.kind = .keyword .class_ := List.mem_singleton.mp opening
    rw [tokens] at awaits
    obtain ⟨current, inside, ahead, _⟩ := awaits.advance_cons
    rw [Tree.tokens_branch] at tokens
    rw [← List.append_nil rest] at ahead
    have stopped : Stopped .class_ [] := by simp [Stopped]
    rw [← p.advance_limit] at shallow
    obtain ⟨located, p', read, alike, left⟩ :=
      (reader_completes p.advance.limit).whole derived shallow tokens stopped current ahead
    have out : p.outermost = (.ok (some located), p') := by
      unfold outermost
      simp only [current, inside, opening, Rule.opened?, read, Bool.false_eq_true, if_false, if_true]
      rfl
    obtain ⟨ended, left⟩ := left.advance_nil
    refine ⟨located.value, ?_, alike⟩
    rcases located with ⟨_ | ⟨rule, children, closed⟩, span⟩
    · cases alike
    · unfold parseClass
      simp only [out, ended, if_true, finish, left.1]

/-- Every class that the grammar derives is read from its tokens as it is derived, closing marks
aside, unless more productions are nested in it than the parser has room for. -/
theorem parseClass_of_derivation {tree : Tree} (derived : tree.Derivation Rule.production)
    (isClass : tree.isRule .class_ = true) {limit : Nat}
    (shallow : tree.height ≤ min limit Limits.parseDepth) {tokens : Array (Located Token)}
    (spelled : tokens.toList.map (·.value) = tree.tokens ∨
      ∃ last : Token, last.isEnd = true ∧ tokens.toList.map (·.value) = tree.tokens ++ [last])
    (index? : Option LineIndex) :
    ∃ parsed, (ofSupply (TokenStream.ofTokens tokens index?) limit).parseClass.1 = .ok parsed ∧
      parsed.bare = tree.bare := by
  have tolerated := (Tree.derivation_production_iff.mp derived).1
  have inside : ∀ token ∈ tree.tokens, token.isEnd = false := by
    refine tolerated.inside fun same => ?_
    cases tree with
    | leaf token => cases isClass
    | branch rule children closed => cases same
  have yields : Yields (TokenStream.ofTokens tokens index?) tree.tokens := by
    rcases spelled with spelled | ⟨last, closing, spelled⟩
    · rw [← spelled] at inside ⊢
      refine TokenStream.yields_ofTokens (fun token member => ?_) (.inl rfl) index?
      exact inside token.value (List.mem_map_of_mem member)
    · obtain ⟨body, ends, stored, same, only⟩ := List.map_eq_append_iff.mp spelled
      obtain ⟨end_, rest, rfl, rfl, nothing⟩ := List.map_eq_cons_iff.mp only
      obtain rfl := List.map_eq_nil_iff.mp nothing
      rw [← same] at inside ⊢
      refine TokenStream.yields_ofTokens (fun token member => ?_) (.inr ⟨end_, closing, stored⟩) index?
      exact inside token.value (List.mem_map_of_mem member)
  exact parseClass_delivers tolerated isClass shallow (awaits_ofSupply yields limit)

private def fixed (kind : TokenKind) : Tree := .leaf (.fixed kind)

private def name (text : String) : Tree := .leaf ⟨.identifier, text⟩

/-- A class whose only function returns the result of a call without arguments. -/
private def callingClass : Tree :=
  .branch .class_
    [fixed (.keyword .class_), name "A", fixed (.sign .lbrace),
      .branch .subroutineDec
        [fixed (.keyword .function), fixed (.keyword .int), name "f", fixed (.sign .lparen),
          fixed (.sign .rparen),
          .branch .subroutineBody
            [fixed (.sign .lbrace),
              .branch .returnStatement
                [fixed (.keyword .return_),
                  .branch .expression
                    [.branch .term
                      [.branch .subroutineCall
                        [name "g", fixed (.sign .lparen), fixed (.sign .rparen)] true]
                      true]
                    false,
                  fixed (.sign .semicolon)]
                true,
              fixed (.sign .rbrace)]
            true]
        true,
      fixed (.sign .rbrace)]
    true

private def callingTokens : Array (Located Token) :=
  (callingClass.tokens.map fun token => ⟨token, .dummy⟩).toArray

theorem parseClass_of_derivation_of_call :
    ∃ parsed,
      (ofSupply (TokenStream.ofTokens callingTokens none) Limits.parseDepth).parseClass.1 =
        .ok parsed ∧ parsed.bare = callingClass.bare :=
  parseClass_of_derivation (by decide +kernel) rfl (by decide) (.inl rfl) none

end Parser

end NandTools
