import Mathlib.Data.List.Forall2
import NandTools.Proofs.Grammar.Production
import NandTools.Proofs.Symbols.Table
import NandTools.Symbols.Class

/-! What a class declares, and the trees in which it is declared. Every class that the tolerated
grammar derives declares something. -/
namespace NandTools

/-- A type as it is written. -/
inductive SymbolType.Spelled : Token → SymbolType → Prop where
  | int (literal : String) : Spelled ⟨.keyword .int, literal⟩ .int
  | char (literal : String) : Spelled ⟨.keyword .char, literal⟩ .char
  | boolean (literal : String) : Spelled ⟨.keyword .boolean, literal⟩ .boolean
  | className (name : String) : Spelled ⟨.identifier, name⟩ (.className name)

/-- The first word of a declaration, inside a class or inside a subroutine. -/
inductive SymbolKind.Announced : Rule → Token → SymbolKind → Prop where
  | static (literal : String) : Announced .classVarDec ⟨.keyword .static, literal⟩ .static
  | field (literal : String) : Announced .classVarDec ⟨.keyword .field, literal⟩ .field
  | var (literal : String) : Announced .varDec ⟨.keyword .var, literal⟩ .local_

inductive SubroutineKind.Announced : Token → SubroutineKind → Prop where
  | constructor (literal : String) : Announced ⟨.keyword .constructor, literal⟩ .constructor
  | function (literal : String) : Announced ⟨.keyword .function, literal⟩ .function
  | method (literal : String) : Announced ⟨.keyword .method, literal⟩ .method

/-- What a subroutine returns, if anything. -/
inductive SymbolType.Returned : Token → Option SymbolType → Prop where
  | void (literal : String) : SymbolType.Returned ⟨.keyword .void, literal⟩ none
  | value {token : Token} {type : SymbolType} (spelled : SymbolType.Spelled token type) :
      SymbolType.Returned token (some type)

/-- Names with commas between them, and a semicolon. -/
inductive Names : List Tree → List String → Prop where
  | last (name literal : String) :
      Names [.leaf ⟨.identifier, name⟩, .leaf ⟨.sign .semicolon, literal⟩] [name]
  | more {rest : List Tree} {names : List String} (name literal : String)
      (later : Names rest names) :
      Names (.leaf ⟨.identifier, name⟩ :: .leaf ⟨.sign .comma, literal⟩ :: rest) (name :: names)

/-- A declaration `kind type name, name, ... ;` of these variables. -/
inductive Declares (rule : Rule) : Tree → List Variable → Prop where
  | intro {word typed : Token} {kind : SymbolKind} {type : SymbolType} {list : List Tree}
      {names : List String} {closed : Bool} (announced : SymbolKind.Announced rule word kind)
      (spelled : SymbolType.Spelled typed type) (listed : Names list names) :
      Declares rule (.branch rule (.leaf word :: .leaf typed :: list) closed)
        (names.map fun name => ⟨name, kind, type⟩)

/-- Parameters `type name, type name, ...`. -/
inductive Parameters : List Tree → List Variable → Prop where
  | last {typed : Token} {type : SymbolType} (name : String)
      (spelled : SymbolType.Spelled typed type) :
      Parameters [.leaf typed, .leaf ⟨.identifier, name⟩] [⟨name, .argument, type⟩]
  | more {typed : Token} {type : SymbolType} {rest : List Tree} {vars : List Variable}
      (name literal : String) (spelled : SymbolType.Spelled typed type)
      (later : Parameters rest vars) :
      Parameters (.leaf typed :: .leaf ⟨.identifier, name⟩ :: .leaf ⟨.sign .comma, literal⟩ :: rest)
        (⟨name, .argument, type⟩ :: vars)

/-- What follows the opening parenthesis of a subroutine, up to its body: the parameters, if there
are any, may stand before or after the closing one. -/
inductive Parenthesized : List Tree → List Variable → Prop where
  | empty (literal : String) : Parenthesized [.leaf ⟨.sign .rparen, literal⟩] []
  | inside {list : List Tree} {parameters : List Variable} {closed : Bool} (literal : String)
      (listed : Parameters list parameters) :
      Parenthesized [.branch .parameterList list closed, .leaf ⟨.sign .rparen, literal⟩] parameters
  | behind {list : List Tree} {parameters : List Variable} {closed : Bool} (literal : String)
      (listed : Parameters list parameters) :
      Parenthesized [.leaf ⟨.sign .rparen, literal⟩, .branch .parameterList list closed] parameters

/-- The body of a subroutine: declarations of its local variables, then statements. -/
inductive Body : Tree → List Variable → Prop where
  | intro {declarations statements : List Tree} {vars : List (List Variable)} {closed : Bool}
      (opening ending : String) (declared : List.Forall₂ (Declares .varDec) declarations vars)
      (commands : ∀ tree ∈ statements, ∃ rule, tree.rule? = some rule ∧ rule.isStatement = true) :
      Body
        (.branch .subroutineBody
          (.leaf ⟨.sign .lbrace, opening⟩ ::
            (declarations ++ (statements ++ [.leaf ⟨.sign .rbrace, ending⟩])))
          closed)
        vars.flatten

structure SubroutineOutline where
  name : String
  kind : SubroutineKind
  returns? : Option SymbolType
  parameters : List Variable
  locals : List Variable
deriving Repr

/-- The tree declares this subroutine. -/
inductive SubroutineOutline.Describes : SubroutineOutline → Tree → Prop where
  | intro {word returned : Token} {kind : SubroutineKind} {returns? : Option SymbolType}
      {list : List Tree} {body : Tree} {parameters locals : List Variable} {closed : Bool}
      (name literal : String) (announced : SubroutineKind.Announced word kind)
      (result : SymbolType.Returned returned returns?) (parenthesized : Parenthesized list parameters)
      (filled : Body body locals) :
      Describes ⟨name, kind, returns?, parameters, locals⟩
        (.branch .subroutineDec
          (.leaf word :: .leaf returned :: .leaf ⟨.identifier, name⟩ ::
            .leaf ⟨.sign .lparen, literal⟩ :: (list ++ [body]))
          closed)

structure ClassOutline where
  name : String
  vars : List Variable
  subroutines : List SubroutineOutline
deriving Repr

/-- The tree declares this class. -/
inductive ClassOutline.Describes : ClassOutline → Tree → Prop where
  | intro {declarations members : List Tree} {vars : List (List Variable)}
      {subroutines : List SubroutineOutline} {closed : Bool} (name word opening ending : String)
      (declared : List.Forall₂ (Declares .classVarDec) declarations vars)
      (described : List.Forall₂ (fun member s => SubroutineOutline.Describes s member) members
        subroutines) :
      Describes ⟨name, vars.flatten, subroutines⟩
        (.branch .class_
          (.leaf ⟨.keyword .class_, word⟩ :: .leaf ⟨.identifier, name⟩ ::
            .leaf ⟨.sign .lbrace, opening⟩ ::
              (declarations ++ (members ++ [.leaf ⟨.sign .rbrace, ending⟩])))
          closed)

namespace Pattern

variable {p q : Pattern} {acceptance : Acceptance} {trees : List Tree}

/-- Children that match two patterns in a row fall into two parts. -/
theorem Matches.split (fits : (Pattern.seq p q).Matches (trees.map Tree.symbol)) :
    ∃ first second, trees = first ++ second ∧ p.Matches (first.map Tree.symbol) ∧
      q.Matches (second.map Tree.symbol) := by
  obtain ⟨u, v, word, front, back⟩ := matches_seq_iff.mp fits
  obtain ⟨first, second, rfl, rfl, rfl⟩ := List.map_eq_append_iff.mp word
  exact ⟨first, second, rfl, front, back⟩

theorem Matches.uncons (fits : (Pattern.seq (.one acceptance) p).Matches (trees.map Tree.symbol)) :
    ∃ tree rest, trees = tree :: rest ∧ acceptance.admits tree.symbol = true ∧
      p.Matches (rest.map Tree.symbol) := by
  obtain ⟨_, _, word, admitted, back⟩ := matches_one_seq_iff.mp fits
  obtain ⟨tree, rest, rfl, rfl, rfl⟩ := List.map_eq_cons_iff.mp word
  exact ⟨tree, rest, rfl, admitted, back⟩

theorem Matches.single (fits : (Pattern.one acceptance).Matches (trees.map Tree.symbol)) :
    ∃ tree, trees = [tree] ∧ acceptance.admits tree.symbol = true := by
  obtain ⟨_, word, admitted⟩ := matches_one_iff.mp fits
  obtain ⟨tree, _, rfl, rfl, nothing⟩ := List.map_eq_cons_iff.mp word
  obtain rfl := List.map_eq_nil_iff.mp nothing
  exact ⟨tree, rfl, admitted⟩

/-- Children that match a repetition fall into its rounds. -/
theorem Matches.rounds (fits : (Pattern.many p).Matches (trees.map Tree.symbol)) :
    ∃ parts : List (List Tree), trees = parts.flatten ∧
      ∀ part ∈ parts, p.Matches (part.map Tree.symbol) := by
  generalize pattern : many p = whole at fits
  generalize word : trees.map Tree.symbol = read at fits
  induction fits generalizing trees with
  | stop => exact ⟨[], List.map_eq_nil_iff.mp word, nofun⟩
  | more first _ _ ih =>
    cases pattern
    obtain ⟨part, rest, rfl, rfl, later⟩ := List.map_eq_append_iff.mp word
    obtain ⟨parts, rfl, matched⟩ := ih rfl later
    exact ⟨part :: parts, rfl, List.forall_mem_cons.mpr ⟨first, matched⟩⟩
  | _ => cases pattern

theorem Matches.repeated (fits : (Pattern.many (.one acceptance)).Matches (trees.map Tree.symbol)) :
    ∀ tree ∈ trees, acceptance.admits tree.symbol = true := by
  obtain ⟨parts, rfl, rounds⟩ := fits.rounds
  intro tree member
  obtain ⟨part, round, inside⟩ := List.mem_flatten.mp member
  obtain ⟨only, rfl, admitted⟩ := (rounds part round).single
  rw [List.mem_singleton.mp inside]
  exact admitted

end Pattern

namespace Tree

variable {tree : Tree}

theorem leaf_of_token {kind : TokenKind}
    (admitted : (Acceptance.token kind).admits tree.symbol = true) :
    ∃ literal, tree = .leaf ⟨kind, literal⟩ := by
  have same := Acceptance.admits_token_iff.mp admitted
  rcases tree with ⟨⟨kind', literal⟩⟩ | _
  · cases same
    exact ⟨literal, rfl⟩
  · cases same

theorem leaf_of_identifier (admitted : Acceptance.identifier.admits tree.symbol = true) :
    ∃ name, tree = .leaf ⟨.identifier, name⟩ := by
  have same := Acceptance.admits_identifier_iff.mp admitted
  rcases tree with ⟨⟨kind', name⟩⟩ | _
  · cases same
    exact ⟨name, rfl⟩
  · cases same

theorem branch_of_rule {rule : Rule} (admitted : (Acceptance.rule rule).admits tree.symbol = true) :
    ∃ children closed, tree = .branch rule children closed := by
  have same := Acceptance.admits_rule_iff.mp admitted
  rcases tree with _ | ⟨rule', children, closed⟩
  · cases same
  · cases same
    exact ⟨children, closed, rfl⟩

theorem leaf_of_type (admitted : Acceptance.type.admits tree.symbol = true) :
    ∃ typed type, tree = .leaf typed ∧ SymbolType.Spelled typed type := by
  rcases tree with ⟨⟨kind, literal⟩⟩ | _
  · have listed : kind.isType = true := admitted
    unfold TokenKind.isType at listed
    split at listed
    · exact ⟨_, _, rfl, .int literal⟩
    · exact ⟨_, _, rfl, .char literal⟩
    · exact ⟨_, _, rfl, .boolean literal⟩
    · exact ⟨_, _, rfl, .className literal⟩
    · cases listed
  · cases admitted

theorem rule_of_statement (admitted : Acceptance.statement.admits tree.symbol = true) :
    ∃ rule, tree.rule? = some rule ∧ rule.isStatement = true := by
  rcases tree with _ | ⟨rule, children, closed⟩
  · cases admitted
  · exact ⟨rule, rfl, admitted⟩

private theorem exists_forall₂ {α β : Type} {related : α → β → Prop} {as : List α}
    (each : ∀ a ∈ as, ∃ b, related a b) : ∃ bs, List.Forall₂ related as bs := by
  induction as with
  | nil => exact ⟨[], .nil⟩
  | cons a rest ih =>
    obtain ⟨first, later⟩ := List.forall_mem_cons.mp each
    obtain ⟨b, holds⟩ := first
    obtain ⟨bs, hold⟩ := ih later
    exact ⟨b :: bs, .cons holds hold⟩

private theorem names_of_rounds {parts : List (List Tree)} (first ending : String)
    (rounds : ∀ part ∈ parts,
      (Pattern.chain [.one (.token (.sign .comma)), .one .identifier]).Matches (part.map symbol)) :
    ∃ names, Names
      (.leaf ⟨.identifier, first⟩ :: (parts.flatten ++ [.leaf ⟨.sign .semicolon, ending⟩])) names := by
  induction parts generalizing first with
  | nil => exact ⟨_, .last first ending⟩
  | cons part parts ih =>
    obtain ⟨round, later⟩ := List.forall_mem_cons.mp rounds
    obtain ⟨_, _, rfl, comma, ident⟩ := round.uncons
    obtain ⟨literal, rfl⟩ := leaf_of_token comma
    obtain ⟨_, rfl, named⟩ := ident.single
    obtain ⟨name, rfl⟩ := leaf_of_identifier named
    obtain ⟨names, listed⟩ := ih name later
    exact ⟨_, .more first literal listed⟩

private theorem declares_of_declarators {rule : Rule} {leading : Acceptance} {children : List Tree}
    {closed : Bool}
    (announces : ∀ tree : Tree, leading.admits tree.symbol = true →
      ∃ word kind, tree = .leaf word ∧ SymbolKind.Announced rule word kind)
    (fits : (Pattern.chain [.one leading, .one .type, .one .identifier,
      .many (.chain [.one (.token (.sign .comma)), .one .identifier]),
      .one (.token (.sign .semicolon))]).Matches (children.map symbol)) :
    ∃ vars, Declares rule (.branch rule children closed) vars := by
  obtain ⟨_, _, rfl, first, afterWord⟩ := fits.uncons
  obtain ⟨word, kind, rfl, announced⟩ := announces _ first
  obtain ⟨_, _, rfl, second, afterType⟩ := afterWord.uncons
  obtain ⟨typed, type, rfl, spelled⟩ := leaf_of_type second
  obtain ⟨_, _, rfl, third, afterName⟩ := afterType.uncons
  obtain ⟨name, rfl⟩ := leaf_of_identifier third
  obtain ⟨more, last, rfl, others, ended⟩ := afterName.split
  obtain ⟨_, rfl, semicolon⟩ := ended.single
  obtain ⟨ending, rfl⟩ := leaf_of_token semicolon
  obtain ⟨parts, rfl, rounds⟩ := others.rounds
  obtain ⟨names, listed⟩ := names_of_rounds name ending rounds
  exact ⟨_, .intro announced spelled listed⟩

/-- One of several words stands at the front. -/
private theorem leaf_of_oneOf {tree : Tree} {kinds : List TokenKind}
    (admitted : (Acceptance.oneOf kinds).admits tree.symbol = true) :
    ∃ kind literal, tree = .leaf ⟨kind, literal⟩ ∧ kind ∈ kinds := by
  rcases tree with ⟨⟨kind, literal⟩⟩ | _
  · exact ⟨kind, literal, rfl, List.contains_iff_mem.mp admitted⟩
  · cases admitted

/-- A declaration of variables that is derived declares some. -/
theorem declares_of_derivation {rule : Rule} {tree : Tree}
    (declaration : rule = .classVarDec ∨ rule = .varDec)
    (admitted : (Acceptance.rule rule).admits tree.symbol = true)
    (derived : tree.Derivation Rule.tolerated) : ∃ vars, Declares rule tree vars := by
  obtain ⟨children, closed, rfl⟩ := branch_of_rule admitted
  obtain ⟨fits, -⟩ := derived.fits
  rcases declaration with rfl | rfl
  · refine declares_of_declarators (fun tree admitted => ?_) fits
    obtain ⟨kind, literal, rfl, listed⟩ := leaf_of_oneOf admitted
    rcases List.mem_pair.mp listed with rfl | rfl
    · exact ⟨_, _, rfl, .static literal⟩
    · exact ⟨_, _, rfl, .field literal⟩
  · refine declares_of_declarators (fun tree admitted => ?_) fits
    obtain ⟨kind, literal, rfl, listed⟩ := leaf_of_oneOf admitted
    obtain rfl := List.mem_singleton.mp listed
    exact ⟨_, _, rfl, .var literal⟩

private theorem parameters_of_rounds {typed : Token} {type : SymbolType} {parts : List (List Tree)}
    (name : String) (spelled : SymbolType.Spelled typed type)
    (rounds : ∀ part ∈ parts, (Pattern.chain [.one (.token (.sign .comma)), .one .type,
      .one .identifier]).Matches (part.map symbol)) :
    ∃ vars, Parameters (.leaf typed :: .leaf ⟨.identifier, name⟩ :: parts.flatten) vars := by
  induction parts generalizing typed type name with
  | nil => exact ⟨_, .last name spelled⟩
  | cons part parts ih =>
    obtain ⟨round, later⟩ := List.forall_mem_cons.mp rounds
    obtain ⟨_, _, rfl, comma, afterComma⟩ := round.uncons
    obtain ⟨literal, rfl⟩ := leaf_of_token comma
    obtain ⟨_, _, rfl, second, afterType⟩ := afterComma.uncons
    obtain ⟨typed', type', rfl, spelled'⟩ := leaf_of_type second
    obtain ⟨_, rfl, named⟩ := afterType.single
    obtain ⟨name', rfl⟩ := leaf_of_identifier named
    obtain ⟨vars, listed⟩ := ih name' spelled' later
    exact ⟨_, .more name literal spelled listed⟩

private theorem parameters_of_derivation {tree : Tree}
    (admitted : (Acceptance.rule .parameterList).admits tree.symbol = true)
    (derived : tree.Derivation Rule.tolerated) :
    ∃ list vars closed, tree = .branch .parameterList list closed ∧ Parameters list vars := by
  obtain ⟨children, closed, rfl⟩ := branch_of_rule admitted
  obtain ⟨fits, -⟩ := derived.fits
  obtain ⟨_, _, rfl, first, afterType⟩ := Pattern.Matches.uncons fits
  obtain ⟨typed, type, rfl, spelled⟩ := leaf_of_type first
  obtain ⟨_, _, rfl, second, afterName⟩ := Pattern.Matches.uncons afterType
  obtain ⟨name, rfl⟩ := leaf_of_identifier second
  obtain ⟨parts, rfl, rounds⟩ := Pattern.Matches.rounds afterName
  obtain ⟨vars, listed⟩ := parameters_of_rounds name spelled rounds
  exact ⟨_, vars, closed, rfl, listed⟩

private theorem body_of_derivation {tree : Tree}
    (admitted : (Acceptance.rule .subroutineBody).admits tree.symbol = true)
    (derived : tree.Derivation Rule.tolerated) : ∃ vars, Body tree vars := by
  obtain ⟨children, closed, rfl⟩ := branch_of_rule admitted
  obtain ⟨fits, parts⟩ := derived.fits
  obtain ⟨_, _, rfl, first, inside⟩ := Pattern.Matches.uncons fits
  obtain ⟨opening, rfl⟩ := leaf_of_token first
  obtain ⟨declarations, _, rfl, declared, afterDeclarations⟩ := Pattern.Matches.split inside
  obtain ⟨statements, _, rfl, commands, ended⟩ := Pattern.Matches.split afterDeclarations
  obtain ⟨_, rfl, brace⟩ := Pattern.Matches.single ended
  obtain ⟨ending, rfl⟩ := leaf_of_token brace
  obtain ⟨vars, declared⟩ := exists_forall₂ fun tree member =>
    declares_of_derivation (.inr rfl) (Pattern.Matches.repeated declared tree member)
      (parts tree (by simp [member]))
  exact ⟨_, .intro opening ending declared fun tree member =>
    rule_of_statement (Pattern.Matches.repeated commands tree member)⟩

private theorem returned_of_matches {trees : List Tree}
    (fits : (Pattern.alt (.one (.token (.keyword .void))) (.one .type)).Matches
      (trees.map symbol)) :
    ∃ token returns?, trees = [.leaf token] ∧ SymbolType.Returned token returns? := by
  rcases Pattern.matches_alt_iff.mp fits with void | value
  · obtain ⟨_, rfl, word⟩ := void.single
    obtain ⟨literal, rfl⟩ := leaf_of_token word
    exact ⟨_, none, rfl, .void literal⟩
  · obtain ⟨_, rfl, typed⟩ := value.single
    obtain ⟨token, type, rfl, spelled⟩ := leaf_of_type typed
    exact ⟨token, some type, rfl, .value spelled⟩

private theorem parenthesized_of_matches {trees : List Tree}
    (fits : (Pattern.alt
      (.chain [.one (.rule .parameterList), .one (.token (.sign .rparen))])
      (.chain [.one (.token (.sign .rparen)), .maybe (.one (.rule .parameterList))])).Matches
        (trees.map symbol))
    (parts : ∀ tree ∈ trees, tree.Derivation Rule.tolerated) :
    ∃ vars, Parenthesized trees vars := by
  rcases Pattern.matches_alt_iff.mp fits with inside | behind
  · obtain ⟨list, _, rfl, listed, ended⟩ := inside.uncons
    obtain ⟨_, rfl, parenthesis⟩ := ended.single
    obtain ⟨literal, rfl⟩ := leaf_of_token parenthesis
    obtain ⟨_, vars, _, rfl, spelled⟩ :=
      parameters_of_derivation listed (parts list List.mem_cons_self)
    exact ⟨vars, .inside literal spelled⟩
  · obtain ⟨_, rest, rfl, parenthesis, later⟩ := behind.uncons
    obtain ⟨literal, rfl⟩ := leaf_of_token parenthesis
    rcases Pattern.matches_maybe_iff.mp later with something | nothing
    · obtain ⟨list, rfl, listed⟩ := something.single
      obtain ⟨_, vars, _, rfl, spelled⟩ := parameters_of_derivation listed (parts list (by simp))
      exact ⟨vars, .behind literal spelled⟩
    · obtain rfl := List.map_eq_nil_iff.mp nothing
      exact ⟨[], .empty literal⟩

/-- A subroutine that is derived is one. -/
theorem describes_subroutine_of_derivation {tree : Tree}
    (admitted : (Acceptance.rule .subroutineDec).admits tree.symbol = true)
    (derived : tree.Derivation Rule.tolerated) :
    ∃ outline : SubroutineOutline, outline.Describes tree := by
  obtain ⟨children, closed, rfl⟩ := branch_of_rule admitted
  obtain ⟨fits, parts⟩ := derived.fits
  obtain ⟨_, _, rfl, first, afterWord⟩ := Pattern.Matches.uncons fits
  obtain ⟨kind, literal, rfl, listed⟩ := leaf_of_oneOf first
  have announced : ∃ subroutine, SubroutineKind.Announced ⟨kind, literal⟩ subroutine := by
    simp only [List.mem_cons, List.not_mem_nil, or_false] at listed
    rcases listed with rfl | rfl | rfl
    · exact ⟨_, .constructor literal⟩
    · exact ⟨_, .function literal⟩
    · exact ⟨_, .method literal⟩
  obtain ⟨subroutine, announced⟩ := announced
  obtain ⟨_, _, rfl, second, afterType⟩ := Pattern.Matches.split afterWord
  obtain ⟨token, returns?, rfl, returned⟩ := returned_of_matches second
  obtain ⟨_, _, rfl, third, afterName⟩ := Pattern.Matches.uncons afterType
  obtain ⟨name, rfl⟩ := leaf_of_identifier third
  obtain ⟨_, _, rfl, fourth, afterParenthesis⟩ := Pattern.Matches.uncons afterName
  obtain ⟨opening, rfl⟩ := leaf_of_token fourth
  obtain ⟨list, _, rfl, parenthesized, last⟩ := Pattern.Matches.split afterParenthesis
  obtain ⟨body, rfl, filled⟩ := Pattern.Matches.single last
  obtain ⟨parameters, parenthesized⟩ :=
    parenthesized_of_matches parenthesized fun tree member => parts tree (by simp [member])
  obtain ⟨locals, filled⟩ := body_of_derivation filled (parts body (by simp))
  exact ⟨_, .intro name opening announced returned parenthesized filled⟩

/-- A class that is derived is one. -/
theorem describes_of_derivation {tree : Tree} (named : tree.isRule .class_ = true)
    (derived : tree.Derivation Rule.tolerated) :
    ∃ outline : ClassOutline, outline.Describes tree := by
  rcases tree with _ | ⟨rule, children, closed⟩
  · cases named
  obtain rfl : rule = .class_ := by simpa [isRule, rule?] using named
  obtain ⟨fits, parts⟩ := derived.fits
  obtain ⟨_, _, rfl, first, afterWord⟩ := Pattern.Matches.uncons fits
  obtain ⟨word, rfl⟩ := leaf_of_token first
  obtain ⟨_, _, rfl, second, afterName⟩ := Pattern.Matches.uncons afterWord
  obtain ⟨name, rfl⟩ := leaf_of_identifier second
  obtain ⟨_, _, rfl, third, inside⟩ := Pattern.Matches.uncons afterName
  obtain ⟨opening, rfl⟩ := leaf_of_token third
  obtain ⟨declarations, _, rfl, declared, afterDeclarations⟩ := Pattern.Matches.split inside
  obtain ⟨members, _, rfl, described, last⟩ := Pattern.Matches.split afterDeclarations
  obtain ⟨_, rfl, brace⟩ := Pattern.Matches.single last
  obtain ⟨ending, rfl⟩ := leaf_of_token brace
  obtain ⟨vars, declared⟩ := exists_forall₂ fun tree member =>
    declares_of_derivation (.inl rfl) (Pattern.Matches.repeated declared tree member)
      (parts tree (by simp [member]))
  obtain ⟨subroutines, described⟩ := exists_forall₂ fun tree member =>
    describes_subroutine_of_derivation (Pattern.Matches.repeated described tree member)
      (parts tree (by simp [member]))
  exact ⟨_, .intro name word opening ending declared described⟩

end Tree

end NandTools
