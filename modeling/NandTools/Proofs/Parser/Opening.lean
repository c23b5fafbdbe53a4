import NandTools.Proofs.Parser.Height

/-! Whatever a token opens begins with it. A construct that has been opened can only fail further
on: where something is missing in it or out of place, or where it is too deep. -/
namespace NandTools

open NandTools.Source

/-- The errors that are met inside a construct. -/
def SyntaxError.isInner : SyntaxError → Bool
  | .incompleteRule .. | .misplacedRule .. | .maxRecursionDepth _ => true
  | .emptyInput | .unexpectedToken .. | .trailingInput .. | .lexical _ => false

namespace Rule

/-- Whether a construct that is opened there begins with the token. A call that goes on after the
name in a term begins with the name. -/
private def begunBy (enclosing : Option Rule) (stage : Stage) (kind : TokenKind) : Bool :=
  (opened? enclosing stage kind).all fun rule =>
    if enclosing = some term ∧ rule = subroutineCall then
      kind == .sign .dot || kind == .sign .lparen
    else rule.openers.contains kind

private theorem all_begun : (none :: all.map some).all (fun enclosing =>
    Stage.all.all fun stage => TokenKind.all.all (begunBy enclosing stage)) = true := by
  decide +kernel

private theorem begun {enclosing : Option Rule} (stage : Stage) (kind : TokenKind) :
    begunBy enclosing stage kind = true := by
  have enclosed : enclosing ∈ none :: all.map some := by
    cases enclosing with
    | none => exact List.mem_cons_self
    | some rule => exact List.mem_cons_of_mem _ (List.mem_map_of_mem rule.mem_all)
  have staged : stage ∈ Stage.all := by cases stage <;> decide
  have checked := List.all_eq_true.mp all_begun enclosing enclosed
  exact List.all_eq_true.mp (List.all_eq_true.mp checked stage staged) kind kind.mem_all

variable {enclosing : Option Rule} {stage : Stage} {kind : TokenKind} {rule : Rule}

theorem mem_openers_of_opened (opened : opened? enclosing stage kind = some rule)
    (apart : ¬ (enclosing = some term ∧ rule = subroutineCall)) : kind ∈ rule.openers := by
  have begun : begunBy enclosing stage kind = true := begun stage kind
  rw [begunBy, opened, Option.all_some, if_neg apart] at begun
  exact List.contains_iff_mem.mp begun

theorem sign_of_opened_call (opened : opened? (some term) stage kind = some subroutineCall) :
    kind = .sign .dot ∨ kind = .sign .lparen := by
  have begun : begunBy (some term) stage kind = true := begun stage kind
  rw [begunBy, opened, Option.all_some, if_pos ⟨rfl, rfl⟩] at begun
  simpa using begun

/-- What a construct begins with, if not with a construct that the token opens in turn. -/
private theorem starts_all : all.all (fun rule =>
    rule == expression || rule == expressionList ||
      rule.openers.all fun kind => ((Posture.start rule).step rule (.kind kind)).isSome) = true := by
  decide +kernel

private theorem opens_all : [expression, expressionList].all (fun rule =>
    rule.openers.all fun kind => (opened? (some rule) .initial kind).any fun first =>
      ((Posture.start rule).step rule (.rule first)).isSome) = true := by
  decide +kernel

end Rule

namespace Matcher

variable {rule : Rule} {m : Matcher}

theorem exists_offer_of_step (regular : m.Regular) (tree : Tree)
    (steps : (m.posture.step m.rule tree.symbol).isSome = true) :
    ∃ m', m.offer? tree = some m' ∧ m.posture.step m.rule tree.symbol = some m'.posture := by
  rw [← offer_posture regular, Option.isSome_map] at steps
  obtain ⟨m', taken⟩ := Option.isSome_iff_exists.mp steps
  refine ⟨m', taken, ?_⟩
  rw [← offer_posture regular, taken, Option.map_some]

/-- A token that begins a construct is taken as its first child. -/
theorem exists_offer_opener (simple : ¬ (rule = .expression ∨ rule = .expressionList)) {token : Token}
    (opens : token.kind ∈ rule.openers) : ∃ m, (ofRule rule).offer? (.leaf token) = some m := by
  have checked := List.all_eq_true.mp Rule.starts_all rule rule.mem_all
  simp only [not_or] at simple
  simp only [Bool.or_eq_true, beq_iff_eq, simple, false_or, List.all_eq_true] at checked
  obtain ⟨m, taken, _⟩ :=
    exists_offer_of_step (regular_ofRule rule) (.leaf token) (checked token.kind opens)
  exact ⟨m, taken⟩

/-- An expression or a list of them begins with what the token opens in it. -/
theorem exists_offer_opened (compound : rule = .expression ∨ rule = .expressionList)
    {kind : TokenKind} (opens : kind ∈ rule.openers) :
    ∃ first, Rule.opened? (some rule) .initial kind = some first ∧
      ∀ tree : Tree, tree.rule? = some first → ∃ m, (ofRule rule).offer? tree = some m := by
  have checked := List.all_eq_true.mp Rule.opens_all rule (by simpa using compound)
  have checked := List.all_eq_true.mp checked kind opens
  obtain ⟨first, opened, steps⟩ := (Option.any_eq_true _ _).mp checked
  refine ⟨first, opened, fun tree named => ?_⟩
  rw [← Parser.symbol_of_rule named] at steps
  obtain ⟨m, taken, _⟩ := exists_offer_of_step (regular_ofRule rule) tree steps
  exact ⟨m, taken⟩

/-- A call takes its name first and then the sign that follows it. -/
theorem exists_offer_callee {name sign : Token} (isName : name.kind = .identifier)
    (isSign : sign.kind = .sign .dot ∨ sign.kind = .sign .lparen) :
    ∃ m m', (ofRule .subroutineCall).offer? (.leaf name) = some m ∧
      m.offer? (.leaf sign) = some m' := by
  have named : (Tree.leaf name).symbol = .kind .identifier := by rw [Tree.symbol, isName]
  have signs : ((Posture.start .subroutineCall).step .subroutineCall (.kind .identifier)).any
      (fun q => [Sign.dot, .lparen].all fun sign =>
        (q.step .subroutineCall (.kind (.sign sign))).isSome) = true := by
    decide +kernel
  obtain ⟨q, stepped, signs⟩ := (Option.any_eq_true _ _).mp signs
  have regular := regular_ofRule .subroutineCall
  obtain ⟨m, begun, posture⟩ := exists_offer_of_step regular (.leaf name)
    (by rw [named]; exact stepped ▸ rfl)
  obtain ⟨inCall, _, kept⟩ := offer_eq_some begun
  rw [named] at posture
  obtain rfl : q = m.posture := Option.some.inj (stepped.symm.trans posture)
  have inCall : m.rule = .subroutineCall := inCall
  obtain ⟨m', taken, _⟩ := exists_offer_of_step (kept regular) (.leaf sign) (by
    rw [inCall, Tree.symbol]
    rcases isSign with dot | paren
    · rw [dot]
      exact List.all_eq_true.mp signs .dot (by simp)
    · rw [paren]
      exact List.all_eq_true.mp signs .lparen (by simp))
  exact ⟨m, m', begun, taken⟩

end Matcher

namespace Parser

variable {σ : Type} [TokenSupply σ] {read : Reader σ} {m m' : Matcher} {word : List Symbol}
  {p p' : Parser σ} {rule : Rule} {callee? : Option Tree} {e : SyntaxError}

/-- The construct is asked for where it begins: with the current token, or with the name of a call
before it. -/
def Begun (rule : Rule) (callee? : Option Tree) (p : Parser σ) : Prop :=
  match callee? with
  | none => p.current.value.kind ∈ rule.openers
  | some callee => rule = .subroutineCall ∧
    (∃ name : Token, callee = .leaf name ∧ name.kind = .identifier) ∧
      (p.current.value.kind = .sign .dot ∨ p.current.value.kind = .sign .lparen)

omit [TokenSupply σ] in
theorem Begun.asked (begun : Begun rule callee? p) : Asked rule callee? p := by
  cases callee? with
  | none =>
    rintro rfl
    have starts : ∀ kind ∈ Rule.openers .term, Rule.startsTerm kind = true := by decide
    exact starts _ begun
  | some callee =>
    obtain ⟨rfl, ⟨name, rfl, _⟩, _⟩ := begun
    exact ⟨rfl, .leaf name⟩

omit [TokenSupply σ] in
theorem begun_of_opened (filling : m.Filling word) (unclosed : m.closed = false)
    (opened : Rule.opened? (some m.rule) m.stage p.current.value.kind = some rule) :
    Begun rule (handOver rule m).1 p := by
  by_cases call : rule = .subroutineCall ∧ m.rule = .term
  · obtain ⟨rfl, inTerm⟩ := call
    rw [inTerm] at opened
    obtain ⟨name, taken, isName⟩ :=
      filling.taken_of_opened_call unclosed inTerm (Rule.stage_of_opened_call opened)
    rw [handOver, if_pos ⟨rfl, inTerm⟩, Matcher.pop, taken]
    exact ⟨rfl, ⟨name, rfl, isName⟩, Rule.sign_of_opened_call opened⟩
  · rw [handOver, if_neg call]
    refine Rule.mem_openers_of_opened opened fun both => call ⟨both.2, ?_⟩
    exact Option.some.inj both.1

/-- A reader that is asked for what begins there fails inside of it only. -/
def Contained (read : Reader σ) : Prop :=
  ∀ rule callee? p e, Begun rule callee? p → (read rule callee? p).val.1 = .error e →
    e.isInner = true

private theorem seed_of_offer {child : Located Tree} (taken : m.offer? child.value = some m') :
    seed m child = .ok m' := by
  rw [seed, taken]

theorem inner_of_open (named : Named read) (contained : Contained read)
    (begun : Begun rule callee? p) (failed : (open_ read rule callee? p).1 = .error e) :
    e.isInner = true := by
  unfold open_ at failed
  dsimp only at failed
  split at failed
  · obtain ⟨rfl, ⟨name, rfl, isName⟩, isSign⟩ := begun
    obtain ⟨m, m', first, second⟩ := Matcher.exists_offer_callee isName isSign
    rw [seed_of_offer first] at failed
    dsimp only [bind, Except.bind] at failed
    rw [seed_of_offer second] at failed
    cases failed
  · split at failed
    · next compound =>
      obtain ⟨first, opened, takes⟩ := Matcher.exists_offer_opened compound begun
      have opens : Rule.opened? (some rule) (Matcher.ofRule rule).stage p.current.value.kind =
        some first := opened
      rw [opens] at failed
      dsimp only at failed
      split at failed
      · next q same =>
        cases failed
        refine contained first none p e ?_ (congrArg Prod.fst same)
        refine Rule.mem_openers_of_opened opened fun both => ?_
        rcases compound with rfl | rfl <;> cases both.1
      · next tree q same =>
        obtain ⟨m, taken⟩ := takes tree.value (named _ _ _ _ (congrArg Prod.fst same))
        rw [seed_of_offer taken] at failed
        cases failed
    · next simple =>
      obtain ⟨m, taken⟩ := Matcher.exists_offer_opener simple begun
      rw [seed_of_offer taken] at failed
      cases failed

theorem inner_of_child (contained : Contained read) (filling : m.Filling word)
    (unclosed : m.closed = false) (found : child read m p = (.error e, m', p')) :
    e.isInner = true := by
  cases finds_of_child found with
  | @failed _ rule opened _ _ same =>
    exact contained rule _ p.advance e (begun_of_opened filling unclosed opened)
      (congrArg Prod.fst same)

theorem inner_of_fill (named : Named read) (sound : Sound read) (contained : Contained read)
    (filling : m.Filling word) {span : Span} (failed : (fill read m span p).1 = .error e) :
    e.isInner = true := by
  fun_induction fill read m span p generalizing word with
  | case2 m span p unclosed e' m' p' found =>
    cases failed
    exact inner_of_child contained filling (by simpa using unclosed) found
  | case4 m span p unclosed m' p' tree found _ m'' taken ih =>
    exact ih (filling_of_child named sound filling (by simpa using unclosed) found taken) failed
  | case6 =>
    cases failed
    rfl
  | case1 | case3 | case5 => cases failed

theorem reader_contained (room : Nat) : Contained (reader room : Reader σ) := by
  induction room with
  | zero =>
    intro rule callee? p e _ failed
    cases failed
    rfl
  | succ room ih =>
    intro rule callee? p e begun failed
    have failed : (build (reader room) rule callee? p).1 = .error e := failed
    unfold build at failed
    split at failed
    · next opening =>
      cases failed
      exact inner_of_open (reader_named room) ih begun (congrArg Prod.fst opening)
    · next m span q opening =>
      obtain ⟨word, filling⟩ := filling_of_open (reader_named room) (reader_sound room)
        begun.asked (congrArg Prod.fst opening)
      split at failed
      · next filled =>
        cases failed
        exact inner_of_fill (reader_named room) (reader_sound room) ih filling
          (congrArg Prod.fst filled)
      · unfold complete at failed
        split at failed
        · cases failed
        · cases failed
          rfl

end Parser

end NandTools
