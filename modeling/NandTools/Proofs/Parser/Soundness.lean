import NandTools.Proofs.Matcher.Language
import NandTools.Proofs.Outcome
import NandTools.Proofs.Parser.Step

/-! Every tree that the parser returns has been put together by matchers, and so it is derived by
the tolerated grammar. The grammar of the language derives it just where it is orderly. -/
namespace NandTools

open NandTools.Source

namespace Rule

/-- How a production begins once it has been opened. -/
def begins : Rule → Symbol → Bool
  | term, .kind k => startsTerm k
  | term, .rule _ => false
  | expressionList, s => s == .rule expression
  | _, _ => true

/-- Opened as it is and without a call that has lost its name, a production has only tolerated
words. -/
theorem tolerated_of_admitted {rule : Rule} {s : Symbol} {rest : List Symbol}
    (admitted : rule.admitted.Matches (s :: rest)) (begun : rule.begins s = true)
    (whole : rule = term → .rule subroutineCall ∉ rest) :
    rule.tolerated.Matches (s :: rest) := by
  cases rule with
  | term =>
    rcases Pattern.matches_alt_iff.mp admitted with nothing | admitted
    · cases Pattern.matches_empty_iff.mp nothing
    · rcases Pattern.matches_alt_iff.mp admitted with bracket | admitted
      · obtain ⟨_, _, word, opening, _⟩ := Pattern.matches_one_seq_iff.mp bracket
        obtain ⟨rfl, rfl⟩ := List.cons.inj word
        obtain rfl := Acceptance.admits_token_iff.mp opening
        cases begun
      · rcases Pattern.matches_alt_iff.mp admitted with named | admitted
        · obtain ⟨_, _, word, _, part⟩ := Pattern.matches_one_seq_iff.mp named
          obtain ⟨rfl, rfl⟩ := List.cons.inj word
          obtain ⟨_, rfl, call⟩ := Pattern.matches_one_iff.mp part
          obtain rfl := Acceptance.admits_rule_iff.mp call
          exact absurd List.mem_cons_self (whole rfl)
        · exact admitted
  | expressionList =>
    obtain rfl := beq_iff_eq.mp begun
    obtain ⟨u, v, word, first, more⟩ := Pattern.matches_seq_iff.mp admitted
    rcases Pattern.matches_maybe_iff.mp first with first | rfl
    · rw [word]
      exact .seq first more
    · rw [List.nil_append] at word
      subst word
      obtain ⟨_, _, _, round, _⟩ := Pattern.matches_many_cons_iff.mp more
      obtain ⟨_, _, word, comma, _⟩ := Pattern.matches_one_seq_iff.mp round
      obtain ⟨rfl, rfl⟩ := List.cons.inj word
      cases Acceptance.admits_token_iff.mp comma
  | _ => exact admitted

end Rule

namespace Matcher

variable {m m' : Matcher} {word : List Symbol}

/-- What a term has read before it is closed: no call, and a name alone where a call may begin. -/
theorem Reads.unclosed_term (read : m.Reads word) (inTerm : m.rule = .term)
    (unclosed : m.closed = false) :
    .rule .subroutineCall ∉ word ∧ (m.stage = .afterIdentifier → word = [.kind .identifier]) := by
  induction read with
  | start rule => exact ⟨List.not_mem_nil, fun stage => Stage.noConfusion stage⟩
  | @take m m' word tree read taken ih =>
    rw [(offer_eq_some taken).1] at inTerm
    obtain ⟨noCall, name⟩ := read.call_in_term inTerm taken unclosed
    have before := unclosed_of_offer taken
    refine ⟨fun member => ?_, fun stage => ?_⟩
    · rcases List.mem_append.mp member with old | new
      · exact (ih inTerm before).1 old
      · exact noCall (List.mem_singleton.mp new).symm
    · obtain ⟨rfl, same⟩ := name stage
      rw [same, List.nil_append]
  | @pop m word _ ih =>
    rw [pop_rule] at inTerm
    have posture := m.pop_posture
    rw [show m.pop.2.closed = m.closed from congrArg Posture.closed posture] at unclosed
    rw [show m.pop.2.stage = m.stage from congrArg Posture.stage posture]
    exact ih inTerm unclosed

/-- Where a call may begin in a term, the term has taken but a name. -/
theorem Reads.taken_of_name (read : m.Reads word) (kept : word = m.children.map Tree.symbol)
    (inTerm : m.rule = .term) (unclosed : m.closed = false) (stage : m.stage = .afterIdentifier) :
    ∃ name, m.taken = [.leaf name] ∧ name.kind = .identifier := by
  have children := (read.unclosed_term inTerm unclosed).2 stage
  rw [kept] at children
  obtain ⟨callee, rest, same, symbol, nothing⟩ := List.map_eq_cons_iff.mp children
  obtain rfl := List.map_eq_nil_iff.mp nothing
  have taken : m.taken = [callee] := by
    rw [← List.reverse_reverse m.taken, show m.taken.reverse = [callee] from same]
    rfl
  cases callee with
  | leaf name => exact ⟨name, taken, Symbol.kind.inj symbol⟩
  | branch rule children closed => cases symbol

/-- The matcher has been opened and has read this word, of which it keeps everything but the name
of a call that it is a term for. -/
structure Filled (m : Matcher) (word : List Symbol) : Prop where
  read : m.Reads word
  begun : ∃ s rest, word = s :: rest ∧ m.rule.begins s = true
  kept : word = m.children.map Tree.symbol ∧ (m.rule = .term → .rule .subroutineCall ∉ word) ∨
    m.rule = .term ∧ m.closed = true ∧ m.children.map Tree.symbol = [.rule .subroutineCall]

end Matcher

namespace Tree

/-- The trees that are put together by matchers. -/
inductive Assembled : Tree → Prop where
  | leaf (token : Token) : Assembled (leaf token)
  | branch {m : Matcher} {word : List Symbol} (filled : m.Filled word)
      (complete : m.isComplete = true) (parts : ∀ child ∈ m.children, Assembled child) :
      Assembled m.toTree

theorem Assembled.derivation {tree : Tree} (assembled : tree.Assembled) :
    tree.Derivation Rule.tolerated := by
  induction assembled with
  | leaf token => exact .leaf token
  | @branch m word filled complete _ ih =>
    refine .branch ?_ ih
    rcases filled.kept with ⟨rfl, whole⟩ | ⟨inTerm, _, call⟩
    · obtain ⟨s, rest, word, begun⟩ := filled.begun
      have admitted := filled.read.isComplete_iff.mp complete
      rw [word] at admitted whole ⊢
      exact Rule.tolerated_of_admitted admitted begun fun inTerm member =>
        whole inTerm (List.mem_cons_of_mem s member)
    · rw [inTerm, call]
      exact .right (.right (.right (.right (.left (.one rfl)))))

end Tree

namespace Matcher

variable {m m' : Matcher} {word : List Symbol}

/-- A production on the way: what it has read, and children that are put together already. -/
structure Filling (m : Matcher) (word : List Symbol) : Prop where
  filled : m.Filled word
  parts : ∀ child ∈ m.children, child.Assembled

theorem Filled.unclosed (filled : m.Filled word) (unclosed : m.closed = false) :
    word = m.children.map Tree.symbol := by
  rcases filled.kept with ⟨same, _⟩ | ⟨_, closed, _⟩
  · exact same
  · rw [unclosed] at closed
    cases closed

/-- A production is begun by its first child. -/
theorem Filling.first {rule : Rule} {tree : Tree} (taken : (ofRule rule).offer? tree = some m)
    (begun : rule.begins tree.symbol = true) (part : tree.Assembled) :
    m.Filling [tree.symbol] := by
  obtain ⟨same, only, _⟩ := offer_eq_some taken
  have children : m.children = [tree] := children_of_offer taken
  refine ⟨⟨.take (.start rule) taken, ⟨_, [], rfl, same ▸ begun⟩, .inl ⟨?_, fun inTerm => ?_⟩⟩, ?_⟩
  · rw [children]
    rfl
  · rw [same] at inTerm
    subst inTerm
    intro member
    rw [← List.mem_singleton.mp member] at begun
    cases begun
  · rw [children]
    intro child member
    rw [List.mem_singleton.mp member]
    exact part

/-- Any further child but a call inside a term is kept beside the others. -/
theorem Filling.next (filling : m.Filling word) {tree : Tree} (taken : m.offer? tree = some m')
    (ordinary : ¬ (m.rule = .term ∧ tree.symbol = .rule .subroutineCall)) (part : tree.Assembled) :
    m'.Filling (word ++ [tree.symbol]) := by
  obtain ⟨same, _, _⟩ := offer_eq_some taken
  obtain ⟨s, rest, rfl, begun⟩ := filling.filled.begun
  have unclosed := unclosed_of_offer taken
  refine ⟨⟨.take filling.filled.read taken, ⟨s, _, rfl, same ▸ begun⟩, .inl ⟨?_, ?_⟩⟩, ?_⟩
  · rw [children_of_offer taken, List.map_append, ← filling.filled.unclosed unclosed]
    rfl
  · intro inTerm member
    rw [same] at inTerm
    rcases List.mem_append.mp member with old | new
    · exact (filling.filled.read.unclosed_term inTerm unclosed).1 old
    · exact ordinary ⟨inTerm, (List.mem_singleton.mp new).symm⟩
  · rw [children_of_offer taken]
    intro child member
    rcases List.mem_append.mp member with old | new
    · exact filling.parts child old
    · rw [List.mem_singleton.mp new]
      exact part

end Matcher

namespace Rule

theorem stage_of_opened_call {stage : Stage} {kind : TokenKind}
    (opened : opened? (some term) stage kind = some subroutineCall) : stage = .afterIdentifier := by
  cases stage with
  | afterIdentifier => rfl
  | inParentheses | inSubscript | afterUnaryOperator =>
    simp only [opened?] at opened
    split at opened <;> cases opened
  | _ => cases opened

/-- The production that begins an expression or a list of them. -/
theorem eq_of_opened_initial {first : Rule} {kind : TokenKind} :
    (opened? (some expression) .initial kind = some first → first = term) ∧
      (opened? (some expressionList) .initial kind = some first → first = expression) := by
  constructor
  all_goals
    intro opened
    simp only [opened?] at opened
    split at opened <;> cases opened
    rfl

theorem startsTerm_of_opened {enclosing : Option Rule} {stage : Stage} {kind : TokenKind}
    (opened : opened? enclosing stage kind = some term) : startsTerm kind = true := by
  have noStatement : statementOf? kind ≠ some term := by
    unfold statementOf?
    split <;> exact fun same => nomatch same
  unfold opened? at opened
  dsimp only at opened
  repeat' split at opened
  all_goals first | assumption | exact absurd opened noStatement | cases opened

end Rule

namespace Parser

variable {σ : Type} [TokenSupply σ] {read : Reader σ} {m m' m'' : Matcher} {word : List Symbol}

/-- How a reader may be asked: for a term only where one starts, and with the name of a call only
for a call. -/
def Asked (rule : Rule) (callee? : Option Tree) (p : Parser σ) : Prop :=
  match callee? with
  | none => rule = .term → Rule.startsTerm p.current.value.kind = true
  | some callee => rule = .subroutineCall ∧ callee.Assembled

/-- A reader returns the production that it is asked for. -/
def Named (read : Reader σ) : Prop :=
  ∀ rule callee? p tree, (read rule callee? p).val.1 = .ok tree → tree.value.rule? = some rule

def Sound (read : Reader σ) : Prop :=
  ∀ rule callee? p tree, Asked rule callee? p → (read rule callee? p).val.1 = .ok tree →
    tree.value.Assembled

theorem symbol_of_rule {tree : Tree} {rule : Rule} (named : tree.rule? = some rule) :
    tree.symbol = .rule rule := by
  cases tree with
  | leaf token => cases named
  | branch r children closed =>
    cases named
    rfl

/-- A term that goes on as a call gives its name away and ends with the call. -/
private theorem filling_of_call (filling : m.Filling word) (inTerm : m.rule = .term)
    (unclosed : m.closed = false) (stage : m.stage = .afterIdentifier) :
    ∃ callee, m.pop.1 = some callee ∧ callee.Assembled ∧
      ∀ {tree : Tree} {m' : Matcher}, tree.symbol = .rule .subroutineCall → tree.Assembled →
        m.pop.2.offer? tree = some m' → m'.Filling (word ++ [tree.symbol]) := by
  have only := (filling.filled.read.unclosed_term inTerm unclosed).2 stage
  obtain ⟨name, taken, -⟩ :=
    filling.filled.read.taken_of_name (filling.filled.unclosed unclosed) inTerm unclosed stage
  have popped : m.pop = (some (.leaf name), { m with taken := [] }) := by
    rw [Matcher.pop, taken]
  refine ⟨.leaf name, by rw [popped], .leaf name, ?_⟩
  intro tree m' symbol part accepted
  have emptied : m.pop.2.Reads word := .pop filling.filled.read
  have sameRule := (Matcher.offer_eq_some accepted).1
  rw [Matcher.pop_rule, inTerm] at sameRule
  have call : m'.children = [tree] := by
    rw [Matcher.children_of_offer accepted, popped]
    rfl
  have closed := emptied.closed_of_call (m.pop_rule.trans inTerm) accepted symbol
  refine ⟨⟨.take emptied accepted, ⟨.kind .identifier, [tree.symbol], by rw [only]; rfl, ?_⟩, .inr
    ⟨sameRule, closed, by rw [call, List.map_singleton, symbol]⟩⟩, ?_⟩
  · rw [sameRule]
    rfl
  · rw [call]
    intro child member
    rw [List.mem_singleton.mp member]
    exact part

/-- What is read as the next child continues the production. -/
theorem filling_of_child (named : Named read) (sound : Sound read) (filling : m.Filling word)
    (unclosed : m.closed = false) {p p' : Parser σ} {tree : Located Tree}
    (found : child read m p = (.ok (some tree), m', p'))
    (taken : m'.offer? tree.value = some m'') : m''.Filling (word ++ [tree.value.symbol]) := by
  cases finds_of_child found with
  | token => exact filling.next taken (by simp [Located.map, Tree.symbol]) (.leaf _)
  | @production _ rule opened _ _ same =>
    have same := congrArg Prod.fst same
    by_cases call : rule = .subroutineCall ∧ m.rule = .term
    · obtain ⟨rfl, inTerm⟩ := call
      rw [inTerm] at opened
      obtain ⟨callee, popped, part, ended⟩ :=
        filling_of_call filling inTerm unclosed (Rule.stage_of_opened_call opened)
      rw [handOver, if_pos ⟨rfl, inTerm⟩] at same taken
      rw [popped] at same
      have asked : Asked .subroutineCall (some callee) p.advance := ⟨rfl, part⟩
      exact ended (symbol_of_rule (named _ _ _ _ same)) (sound _ _ _ _ asked same) taken
    · rw [handOver, if_neg call] at same taken
      have asked : Asked rule none p.advance := by
        rintro rfl
        exact Rule.startsTerm_of_opened opened
      refine filling.next taken (fun both => call ⟨?_, both.1⟩) (sound _ _ _ _ asked same)
      exact Symbol.rule.inj ((symbol_of_rule (named _ _ _ _ same)).symm.trans both.2)

omit [TokenSupply σ] in
theorem rule_handOver (rule : Rule) (m : Matcher) : (handOver rule m).2.rule = m.rule := by
  unfold handOver
  split
  · exact m.pop_rule
  · rfl

theorem rule_of_child {p p' : Parser σ} {tree? : Except SyntaxError (Option (Located Tree))}
    (found : child read m p = (tree?, m', p')) : m'.rule = m.rule := by
  cases finds_of_child found with
  | ended | token => rfl
  | production | failed => exact rule_handOver _ m

/-- Only a construct that is read can have changed the matcher. -/
theorem kept_of_child (named : Named read) {p p' : Parser σ} {tree? : Option (Located Tree)}
    (found : child read m p = (.ok tree?, m', p'))
    (plain : ∀ tree, tree? = some tree → tree.value.rule? = none) : m' = m := by
  cases finds_of_child found with
  | ended | token => rfl
  | production _ _ same =>
    have named := named _ _ _ _ (congrArg Prod.fst same)
    rw [plain _ rfl] at named
    cases named

/-- A child that is a token has just been advanced to. -/
theorem advance_of_child_leaf (named : Named read) {p p' : Parser σ} {tree : Located Tree}
    {token : Token} (found : child read m p = (.ok (some tree), m', p'))
    (leaf : tree.value = .leaf token) :
    m' = m ∧ p' = p.advance ∧ p.advance.current.value.isEnd = false := by
  cases finds_of_child found with
  | token inside => exact ⟨rfl, rfl, inside⟩
  | production _ _ same =>
    have rule := named _ _ _ _ (congrArg Prod.fst same)
    rw [leaf] at rule
    cases rule

theorem rule_of_fill {span span' : Span} {p : Parser σ}
    (filled : (fill read m span p).1 = .ok (m', span')) : m'.rule = m.rule := by
  fun_induction fill read m span p with
  | case1 =>
    cases filled
    rfl
  | case4 m span p _ m' p' tree found _ m'' taken ih =>
    exact (ih filled).trans ((Matcher.offer_eq_some taken).1.trans (rule_of_child found))
  | case3 m span p _ m' p' found | case5 m span p _ m' p' _ found =>
    cases filled
    exact rule_of_child found
  | case2 | case6 => cases filled

theorem filling_of_fill (named : Named read) (sound : Sound read) (filling : m.Filling word)
    {span span' : Span} {p : Parser σ} (filled : (fill read m span p).1 = .ok (m', span')) :
    ∃ word', m'.Filling word' := by
  fun_induction fill read m span p generalizing word with
  | case1 =>
    cases filled
    exact ⟨word, filling⟩
  | case3 m span p closed m' p' found =>
    cases filled
    obtain rfl := kept_of_child named found (by simp)
    exact ⟨word, filling⟩
  | case4 m span p unclosed m' p' tree found _ m'' taken ih =>
    exact ih (filling_of_child named sound filling (by simpa using unclosed) found taken) filled
  | case5 m span p unclosed m' p' tree found _ refused token leaf =>
    cases filled
    obtain rfl := kept_of_child named found (by rintro _ ⟨⟩; rw [leaf]; rfl)
    exact ⟨word, filling⟩
  | case2 | case6 => cases filled

theorem offer_of_seed {child : Located Tree} (seeded : seed m child = .ok m') :
    m.offer? child.value = some m' := by
  unfold seed at seeded
  split at seeded
  · next same => rw [same, Except.ok.inj seeded]
  · split at seeded <;> cases seeded

/-- What a production begins with: the name that is handed over and the current token, or a
production that the current token opens, or this token alone. -/
inductive Begins (read : Reader σ) (rule : Rule) (p : Parser σ) :
    Option Tree → Matcher → Parser σ → Prop where
  | callee {callee : Tree} {m m' : Matcher} (first : (Matcher.ofRule rule).offer? callee = some m)
      (second : m.offer? (.leaf p.current.value) = some m') : Begins read rule p (some callee) m' p
  | construct (compound : rule = .expression ∨ rule = .expressionList) {first : Rule}
      (opens : Rule.opened? (some rule) .initial p.current.value.kind = some first)
      {tree : Located Tree} {p' : Parser σ} (same : (read first none p).val = (.ok tree, p'))
      {m : Matcher} (taken : (Matcher.ofRule rule).offer? tree.value = some m) :
      Begins read rule p none m p'
  | token (simple : ¬ (rule = .expression ∨ rule = .expressionList)) {m : Matcher}
      (taken : (Matcher.ofRule rule).offer? (.leaf p.current.value) = some m) :
      Begins read rule p none m p

theorem begins_of_open {rule : Rule} {callee? : Option Tree} {p p' : Parser σ} {span : Span}
    (opened : open_ read rule callee? p = (.ok (m, span), p')) :
    Begins read rule p callee? m p' := by
  unfold open_ at opened
  dsimp only at opened
  split at opened
  · obtain ⟨mapped, rfl⟩ := Prod.mk.inj opened
    obtain ⟨_, seeded, same⟩ := Except.ok_of_map mapped
    obtain ⟨rfl, -⟩ := Prod.mk.inj same
    obtain ⟨_, first, second⟩ := Except.ok_of_bind seeded
    exact .callee (offer_of_seed first) (offer_of_seed second)
  · split at opened
    · next compound =>
      split at opened
      · cases opened
      · next first opens =>
        split at opened
        · cases opened
        · next tree q same =>
          obtain ⟨mapped, rfl⟩ := Prod.mk.inj opened
          obtain ⟨_, seeded, same'⟩ := Except.ok_of_map mapped
          obtain ⟨rfl, -⟩ := Prod.mk.inj same'
          exact .construct compound opens same (offer_of_seed seeded)
    · next simple =>
      obtain ⟨mapped, rfl⟩ := Prod.mk.inj opened
      obtain ⟨_, seeded, same⟩ := Except.ok_of_map mapped
      obtain ⟨rfl, -⟩ := Prod.mk.inj same
      exact .token simple (offer_of_seed seeded)

theorem exists_begins {rule : Rule} {callee? : Option Tree} {p : Parser σ} {span : Span}
    (opened : (open_ read rule callee? p).1 = .ok (m, span)) :
    ∃ p', Begins read rule p callee? m p' :=
  ⟨_, begins_of_open (Prod.ext opened rfl)⟩

theorem rule_of_open {rule : Rule} {callee? : Option Tree} {p : Parser σ} {span : Span}
    (opened : (open_ read rule callee? p).1 = .ok (m, span)) : m.rule = rule := by
  obtain ⟨_, begins⟩ := exists_begins opened
  cases begins with
  | callee first second =>
    exact (Matcher.offer_eq_some second).1.trans (Matcher.offer_eq_some first).1
  | construct _ _ _ taken | token _ taken => exact (Matcher.offer_eq_some taken).1

theorem filling_of_open (named : Named read) (sound : Sound read) {rule : Rule}
    {callee? : Option Tree} {p : Parser σ} {span : Span} (asked : Asked rule callee? p)
    (opened : (open_ read rule callee? p).1 = .ok (m, span)) : ∃ word, m.Filling word := by
  obtain ⟨_, begins⟩ := exists_begins opened
  cases begins with
  | callee first second =>
    obtain ⟨rfl, part⟩ := asked
    have filling := Matcher.Filling.first first rfl part
    exact ⟨_, filling.next second (by simp [Tree.symbol]) (.leaf _)⟩
  | @construct compound first opens _ _ same _ taken =>
    have read_ := congrArg Prod.fst same
    have askedFirst : Asked first none p := by
      rintro rfl
      exact Rule.startsTerm_of_opened opens
    refine ⟨_, .first taken ?_ (sound _ _ _ _ askedFirst read_)⟩
    rw [symbol_of_rule (named _ _ _ _ read_)]
    cases rule with
    | expressionList =>
      obtain rfl := Rule.eq_of_opened_initial.2 opens
      rfl
    | term => simp at compound
    | _ => rfl
  | token simple taken =>
    refine ⟨_, .first taken ?_ (.leaf _)⟩
    simp only [not_or] at simple
    cases rule with
    | term => exact asked rfl
    | expressionList => exact absurd rfl simple.2
    | _ => rfl

/-- A production that is read has been opened, filled and found complete. -/
theorem built {rule : Rule} {callee? : Option Tree} {p : Parser σ} {tree : Located Tree}
    (read_ : (build read rule callee? p).1 = .ok tree) :
    ∃ m span p' m' span', open_ read rule callee? p = (.ok (m, span), p') ∧
      (fill read m span p').1 = .ok (m', span') ∧ m'.isComplete = true ∧
      tree.value = m'.toTree := by
  obtain ⟨m, span, p', m', _, opened, filled, complete, same, -⟩ :=
    exists_filled (Prod.ext read_ rfl)
  exact ⟨m, span, p', m', tree.span, opened, by rw [filled], complete, same⟩

theorem reader_named (room : Nat) : Named (reader room : Reader σ) := by
  intro rule callee? p tree read
  cases room with
  | zero => cases read
  | succ room =>
    obtain ⟨m, span, p', m', span', opened, filled, _, same⟩ := built read
    have named : m'.rule = rule :=
      (rule_of_fill filled).trans (rule_of_open (congrArg Prod.fst opened))
    rw [same, ← named]
    rfl

theorem reader_sound (room : Nat) : Sound (reader room : Reader σ) := by
  induction room with
  | zero => exact fun _ _ _ _ _ read => nomatch read
  | succ room ih =>
    intro rule callee? p tree asked read
    obtain ⟨m, span, p', m', span', opened, filled, complete, same⟩ := built read
    obtain ⟨_, opening⟩ :=
      filling_of_open (reader_named room) ih asked (congrArg Prod.fst opened)
    obtain ⟨_, filling⟩ := filling_of_fill (reader_named room) ih opening filled
    rw [same]
    exact .branch filling.filled complete filling.parts

omit [TokenSupply σ] in
theorem ok_of_finish {α : Type} {out : Except SyntaxError α × Parser σ} {a : α}
    (finished : (finish out).1 = .ok a) : out.1 = .ok a := by
  unfold finish at finished
  split at finished
  · cases finished
  · exact finished

/-- A class that is returned has been put together by matchers. -/
theorem parseClass_assembled {p : Parser σ} {tree : Tree} (parsed : p.parseClass.1 = .ok tree) :
    tree.isRule .class_ = true ∧ tree.Assembled := by
  have out := ok_of_finish parsed
  dsimp only at out
  split at out
  · cases out
  · cases out
  · cases out
  · next notLeaf read =>
    split at out
    · cases out
      unfold outermost at read
      dsimp only at read
      split at read
      · cases read
      · split at read
        · cases read
          exact (notLeaf _ rfl).elim
        · next rule opened =>
          obtain ⟨located, same, only⟩ := Except.ok_of_map read
          obtain rfl := Option.some.inj only
          have class_ : rule = .class_ := by
            simp only [Rule.opened?] at opened
            split at opened <;> cases opened
            rfl
          subst class_
          have asked : Asked .class_ none p.advance := fun other => nomatch other
          refine ⟨?_, reader_sound _ _ _ _ _ asked same⟩
          rw [Tree.isRule, reader_named _ _ _ _ _ same]
          rfl
    · cases out

end Parser

/-- A class that is read from a text is derived by the grammar just where no stray neighbours
occur in it: a parameter list after its parentheses, or a constant right after a name. Nothing
else that the grammar refuses is let through. -/
theorem parseText_derivation_iff {text : List Char} {tree : Tree}
    (parsed : (parseText text).1 = .ok tree) :
    tree.isRule .class_ = true ∧ tree.Derivation Rule.tolerated ∧
      (tree.Derivation Rule.production ↔ tree.orderly = true) := by
  obtain ⟨named, assembled⟩ := Parser.parseClass_assembled parsed
  refine ⟨named, assembled.derivation, ?_⟩
  rw [Tree.derivation_production_iff, and_iff_right assembled.derivation]

/-- The text is read as a class of which `holds` is true. -/
private def readsAs (holds : Tree → Bool) (text : String) : Bool :=
  match (parseText text.toList).1 with
  | .ok tree => holds tree
  | .error _ => false

private theorem exists_tree_of_readsAs {holds : Tree → Bool} {text : String}
    (read : readsAs holds text = true) :
    ∃ tree, (parseText text.toList).1 = .ok tree ∧ holds tree = true := by
  unfold readsAs at read
  split at read
  · next tree parsed => exact ⟨tree, parsed, read⟩
  · cases read

theorem parseText_derivation_of_parameter :
    ∃ tree, (parseText "class A { function int f(int x) { return x; } }".toList).1 = .ok tree ∧
      tree.Derivation Rule.production := by
  have read : readsAs Tree.orderly "class A { function int f(int x) { return x; } }" = true := by
    decide +kernel
  obtain ⟨tree, parsed, orderly⟩ := exists_tree_of_readsAs read
  exact ⟨tree, parsed, (parseText_derivation_iff parsed).2.2.mpr orderly⟩

/-- Parameters may stand after their parentheses, where no production has them. -/
theorem parseText_not_derivation :
    ¬ ∀ (text : List Char) (tree : Tree), (parseText text).1 = .ok tree →
      tree.Derivation Rule.production := by
  intro sound
  have read : readsAs (fun tree => !tree.orderly)
      "class A { function void f() int x { return; } }" = true := by
    decide +kernel
  obtain ⟨tree, parsed, stray⟩ := exists_tree_of_readsAs read
  have orderly := (Tree.derivation_production_iff.mp (sound _ tree parsed)).2
  rw [orderly] at stray
  cases stray

example : readsAs (fun tree => !tree.orderly)
    "class A { function int f() { return y 5; } }" = true := by
  decide +kernel

end NandTools
