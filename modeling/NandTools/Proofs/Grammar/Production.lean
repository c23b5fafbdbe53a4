import NandTools.Proofs.Grammar.Pattern

/-! The productions of the Jack grammar as regular patterns, the trees derived by them, and the
wider patterns that matchers admit. -/
namespace NandTools

open Pattern

private def word (keyword : Keyword) : Pattern := one (.token (.keyword keyword))

private def mark (sign : Sign) : Pattern := one (.token (.sign sign))

private def part (rule : Rule) : Pattern := one (.rule rule)

private def named : Pattern := one .identifier

private def typed : Pattern := one .type

private def declarators (leading : List Keyword) : Pattern :=
  chain [one (.oneOf (leading.map .keyword)), typed, named, many (chain [mark .comma, named]),
    mark .semicolon]

private def block : Pattern := chain [mark .lbrace, many (one .statement), mark .rbrace]

private def subscript : Pattern := chain [mark .lbracket, part .expression, mark .rbracket]

private def signature : List Pattern :=
  [one (.oneOf [.keyword .constructor, .keyword .function, .keyword .method]),
    alt (word .void) typed, named, mark .lparen]

namespace Rule

/-- The productions. Statements stand directly in the block that holds them, and a list without
elements has no node. -/
def production : Rule → Pattern
  | class_ =>
    chain [word .class_, named, mark .lbrace, many (part classVarDec), many (part subroutineDec),
      mark .rbrace]
  | classVarDec => declarators [.static, .field]
  | subroutineDec =>
    chain (signature ++ [maybe (part parameterList), mark .rparen, part subroutineBody])
  | parameterList => chain [typed, named, many (chain [mark .comma, typed, named])]
  | subroutineBody =>
    chain [mark .lbrace, many (part varDec), many (one .statement), mark .rbrace]
  | varDec => declarators [.var]
  | letStatement =>
    chain [word .let_, named, maybe subscript, mark .equals, part expression, mark .semicolon]
  | ifStatement =>
    chain [word .if_, mark .lparen, part expression, mark .rparen, block,
      maybe (chain [word .else_, block])]
  | whileStatement => chain [word .while_, mark .lparen, part expression, mark .rparen, block]
  | doStatement => chain [word .do_, part subroutineCall, mark .semicolon]
  | returnStatement => chain [word .return_, maybe (part expression), mark .semicolon]
  | expression => chain [part term, many (chain [one .binaryOperator, part term])]
  | term =>
    alt (one .constant) <| alt named <| alt (chain [named, subscript]) <|
      alt (part subroutineCall) <|
      alt (chain [mark .lparen, part expression, mark .rparen]) <|
      chain [one .unaryOperator, part term]
  | subroutineCall =>
    chain [named, maybe (chain [mark .dot, named]), mark .lparen, maybe (part expressionList),
      mark .rparen]
  | expressionList => chain [part expression, many (chain [mark .comma, part expression])]

/-- What is read without complaint: a parameter list may also follow its parentheses, and a
constant may follow a name. -/
def tolerated : Rule → Pattern
  | subroutineDec =>
    chain (signature ++
      [alt (chain [part parameterList, mark .rparen])
        (chain [mark .rparen, maybe (part parameterList)]),
        part subroutineBody])
  | term => alt (chain [named, one .constant]) term.production
  | rule => rule.production

/-- What a matcher by itself admits. No token opens a term or a list of expressions such that
they would begin as here. -/
def admitted : Rule → Pattern
  | term =>
    alt empty <| alt subscript <| alt (chain [named, part subroutineCall]) term.tolerated
  | expressionList =>
    chain [maybe (part expression), many (chain [mark .comma, part expression])]
  | rule => rule.tolerated

/-- Neighbouring children that are tolerated although no production has them. -/
def strays : Rule → Symbol → Symbol → Bool
  | subroutineDec, .kind (.sign .rparen), .rule parameterList => true
  | term, .kind .identifier, .kind kind => kind.isLiteral
  | _, _, _ => false

def orderly (rule : Rule) : List Symbol → Bool
  | a :: b :: rest => !rule.strays a b && orderly rule (b :: rest)
  | _ => true

end Rule

namespace Tree

/-- The tree is derived by `grammar`: the children of every branch match its production. -/
inductive Derivation (grammar : Rule → Pattern) : Tree → Prop where
  | leaf (token : Token) : Derivation grammar (leaf token)
  | branch {rule : Rule} {children : List Tree} {closed : Bool}
      (fits : (grammar rule).Matches (children.map symbol))
      (parts : ∀ child ∈ children, Derivation grammar child) :
      Derivation grammar (branch rule children closed)

theorem Derivation.fits {grammar : Rule → Pattern} {rule : Rule} {children : List Tree}
    {closed : Bool} (derived : (Tree.branch rule children closed).Derivation grammar) :
    (grammar rule).Matches (children.map symbol) ∧ ∀ child ∈ children, child.Derivation grammar := by
  cases derived with
  | branch fits parts => exact ⟨fits, parts⟩

mutual

private def derives (grammar : Rule → Pattern) : Tree → Bool
  | leaf _ => true
  | branch rule children _ =>
    decide ((grammar rule).Matches (children.map symbol)) && derivesAll grammar children

private def derivesAll (grammar : Rule → Pattern) : List Tree → Bool
  | [] => true
  | tree :: rest => derives grammar tree && derivesAll grammar rest

end

mutual

private theorem derives_iff (grammar : Rule → Pattern) :
    (tree : Tree) → (derives grammar tree = true ↔ tree.Derivation grammar)
  | leaf token => iff_of_true rfl (.leaf token)
  | branch rule children closed => by
    rw [derives, Bool.and_eq_true, decide_eq_true_eq, derivesAll_iff grammar children]
    exact ⟨fun ⟨fits, parts⟩ => .branch fits parts, Derivation.fits⟩

private theorem derivesAll_iff (grammar : Rule → Pattern) : (trees : List Tree) →
    (derivesAll grammar trees = true ↔ ∀ tree ∈ trees, tree.Derivation grammar)
  | [] => by simp [derivesAll]
  | tree :: rest => by
    rw [derivesAll, Bool.and_eq_true, derives_iff grammar tree, derivesAll_iff grammar rest,
      List.forall_mem_cons]

end

instance (grammar : Rule → Pattern) (tree : Tree) : Decidable (tree.Derivation grammar) :=
  decidable_of_iff _ (derives_iff grammar tree)

mutual

/-- No stray neighbours in any branch. -/
def orderly : Tree → Bool
  | leaf _ => true
  | branch rule children _ => rule.orderly (children.map symbol) && allOrderly children

def allOrderly : List Tree → Bool
  | [] => true
  | tree :: rest => tree.orderly && allOrderly rest

end

theorem allOrderly_iff {trees : List Tree} :
    allOrderly trees = true ↔ ∀ tree ∈ trees, tree.orderly = true := by
  induction trees with
  | nil => simp [allOrderly]
  | cons tree rest ih => simp [allOrderly, ih]

end Tree

namespace Rule

private theorem orderly_of_no_strays {rule : Rule} (none : ∀ a b, rule.strays a b = false)
    (w : List Symbol) : rule.orderly w = true := by
  induction w with
  | nil => rfl
  | cons a rest ih =>
    cases rest with
    | nil => rfl
    | cons b rest => simp [orderly, none, ih]

private theorem orderly_append {rule : Rule} {u : List Symbol}
    (none : ∀ a ∈ u, ∀ b, rule.strays a b = false) (v : List Symbol) :
    rule.orderly (u ++ v) = rule.orderly v := by
  induction u with
  | nil => rfl
  | cons a rest ih =>
    have tail := ih fun b member => none b (List.mem_cons_of_mem a member)
    cases whole : rest ++ v with
    | nil =>
      obtain ⟨rfl, rfl⟩ := List.append_eq_nil_iff.mp whole
      rfl
    | cons b rest => simp [orderly, none, ← tail, whole]

private theorem signature_no_strays {u : List Symbol} (header : (chain signature).Matches u) :
    ∀ a ∈ u, ∀ b, subroutineDec.strays a b = false := by
  intro a member b
  have listed := header.mem_symbols a member
  have other : a ≠ .kind (.sign .rparen) := by
    rintro rfl
    revert listed
    decide
  unfold strays
  split <;> simp_all

private theorem matches_subroutineDec_iff {w : List Symbol} :
    subroutineDec.production.Matches w ↔
      subroutineDec.tolerated.Matches w ∧ subroutineDec.orderly w = true := by
  simp only [production, tolerated]
  rw [matches_chain_append_iff (by simp), matches_chain_append_iff (by simp)]
  constructor
  · rintro ⟨u, v, rfl, header, tail⟩
    rw [orderly_append (signature_no_strays header)]
    simp only [chain, matches_seq_iff, matches_maybe_iff, part, mark, matches_one_iff] at tail
    obtain ⟨front, _, rfl, listed, _, _, rfl, ⟨s, rfl, parenthesis⟩, t, rfl, body⟩ := tail
    obtain rfl := Acceptance.admits_token_iff.mp parenthesis
    obtain rfl := Acceptance.admits_rule_iff.mp body
    rcases listed with ⟨list, rfl, listed⟩ | rfl
    · obtain rfl := Acceptance.admits_rule_iff.mp listed
      have closed : (chain [part parameterList, mark .rparen]).Matches [_, _] :=
        .seq (.one listed) (.one parenthesis)
      exact ⟨⟨u, [_, _] ++ [_], rfl, header, .seq (.left closed) (.one body)⟩, rfl⟩
    · refine ⟨⟨u, _, rfl, header, ?_⟩, rfl⟩
      exact .seq (u := [_]) (.right (.seq (u := [_]) (.one parenthesis) (.right .empty))) (.one body)
  · rintro ⟨⟨u, v, rfl, header, tail⟩, tidy⟩
    rw [orderly_append (signature_no_strays header)] at tidy
    refine ⟨u, v, rfl, header, ?_⟩
    simp only [chain, matches_seq_iff, matches_alt_iff, matches_maybe_iff, part, mark,
      matches_one_iff] at tail ⊢
    obtain ⟨front, body, rfl, before | after, closing⟩ := tail
    · obtain ⟨list, parenthesis, rfl, listed, found⟩ := before
      exact ⟨list, parenthesis ++ body, by simp, .inl listed, parenthesis, body, rfl, found, closing⟩
    · obtain ⟨_, list, rfl, ⟨s, rfl, parenthesis⟩, listed⟩ := after
      rcases listed with ⟨t, rfl, listed⟩ | rfl
      · obtain rfl := Acceptance.admits_token_iff.mp parenthesis
        obtain rfl := Acceptance.admits_rule_iff.mp listed
        cases tidy
      · exact ⟨[], [s] ++ body, rfl, .inr rfl, [s], body, rfl, ⟨s, rfl, parenthesis⟩, closing⟩

private theorem orderly_term {w : List Symbol} (fits : term.production.Matches w) :
    term.orderly w = true := by
  simp only [production, subscript, chain, matches_alt_iff, matches_one_seq_iff, matches_one_iff,
    named, mark, part] at fits
  rcases fits with ⟨_, rfl, _⟩ | ⟨_, rfl, _⟩ | ⟨_, _, rfl, name, _, _, rfl, opening, bracket⟩ |
    ⟨_, rfl, _⟩ | ⟨_, _, rfl, opening, _, _, rfl, inner, _, rfl, closing⟩ |
    ⟨_, _, rfl, sign, _, rfl, operand⟩
  · rfl
  · rfl
  · obtain ⟨_, _, rfl, inner, _, rfl, closing⟩ := bracket
    obtain rfl := Acceptance.admits_identifier_iff.mp name
    obtain rfl := Acceptance.admits_token_iff.mp opening
    obtain rfl := Acceptance.admits_rule_iff.mp inner
    obtain rfl := Acceptance.admits_token_iff.mp closing
    rfl
  · rfl
  · obtain rfl := Acceptance.admits_token_iff.mp opening
    obtain rfl := Acceptance.admits_rule_iff.mp inner
    obtain rfl := Acceptance.admits_token_iff.mp closing
    rfl
  · obtain rfl := Acceptance.admits_rule_iff.mp operand
    simp [orderly, strays]

private theorem matches_term_iff {w : List Symbol} :
    term.production.Matches w ↔ term.tolerated.Matches w ∧ term.orderly w = true := by
  constructor
  · exact fun fits => ⟨.right fits, orderly_term fits⟩
  · rintro ⟨fits, tidy⟩
    rcases matches_alt_iff.mp fits with stray | fits
    · simp only [chain, named, matches_one_seq_iff, matches_one_iff] at stray
      obtain ⟨s, _, rfl, name, t, rfl, literal⟩ := stray
      obtain rfl := Acceptance.admits_identifier_iff.mp name
      cases t with
      | kind k =>
        have literal : k.isLiteral = true := literal
        simp [orderly, strays, literal] at tidy
      | rule r => cases literal
    · exact fits

theorem matches_production_iff {rule : Rule} {w : List Symbol} :
    rule.production.Matches w ↔ rule.tolerated.Matches w ∧ rule.orderly w = true := by
  cases rule with
  | subroutineDec => exact matches_subroutineDec_iff
  | term => exact matches_term_iff
  | _ => exact (and_iff_left (orderly_of_no_strays (fun _ _ => rfl) w)).symm

end Rule

namespace Tree

/-- What is tolerated is derived by the grammar just where no stray neighbours occur. -/
theorem derivation_production_iff {tree : Tree} :
    tree.Derivation Rule.production ↔
      tree.Derivation Rule.tolerated ∧ tree.orderly = true := by
  constructor
  · intro derived
    induction derived with
    | leaf token => exact ⟨.leaf token, rfl⟩
    | branch fits _ ih =>
      obtain ⟨fits, tidy⟩ := Rule.matches_production_iff.mp fits
      refine ⟨.branch fits fun child member => (ih child member).1, ?_⟩
      rw [orderly, tidy, Bool.true_and, allOrderly_iff]
      exact fun child member => (ih child member).2
  · rintro ⟨derived, tidy⟩
    induction derived with
    | leaf token => exact .leaf token
    | branch fits _ ih =>
      rw [orderly, Bool.and_eq_true, allOrderly_iff] at tidy
      refine .branch (Rule.matches_production_iff.mpr ⟨fits, tidy.1⟩) ?_
      exact fun child member => ih child member (tidy.2 child member)

end Tree

end NandTools
