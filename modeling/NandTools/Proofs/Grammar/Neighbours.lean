import NandTools.Grammar.Schema
import NandTools.Proofs.Grammar.Production
import NandTools.Proofs.Tree.Tokens

/-! The tokens with which a construct begins, and those that tell a construct which marks no end
of its own that it has ended. -/
namespace NandTools

open Keyword Sign

private def termOpeners : List TokenKind :=
  [.identifier, .integer, .string, .sign lparen, .sign tilde, .sign minus, .keyword true_,
    .keyword false_, .keyword null, .keyword this_]

namespace Rule

def openers : Rule → List TokenKind
  | class_ => [.keyword .class_]
  | classVarDec => [.keyword static, .keyword field]
  | subroutineDec => [.keyword constructor, .keyword function, .keyword method]
  | parameterList => [.keyword int, .keyword char, .keyword boolean, .identifier]
  | subroutineBody => [.sign lbrace]
  | varDec => [.keyword var]
  | letStatement => [.keyword let_]
  | ifStatement => [.keyword if_]
  | whileStatement => [.keyword while_]
  | doStatement => [.keyword do_]
  | returnStatement => [.keyword return_]
  | subroutineCall => [.identifier]
  | expression | term | expressionList => termOpeners

/-- Whether a construct of this rule has ended before a token of kind `kind`. Where nothing is
said, the construct marks its end itself. -/
def stops : Rule → TokenKind → Bool
  | parameterList, kind => kind = .sign rparen || kind = .sign lbrace
  | ifStatement, kind => kind = .sign rbrace || (statementOf? kind).isSome
  | term, kind =>
    kind.isBinaryOperator || [.sign semicolon, .sign rparen, .sign rbracket, .sign comma].contains kind
  | expression, kind =>
    [.sign semicolon, .sign rparen, .sign rbracket, .sign comma].contains kind
  | expressionList, kind => kind = .sign rparen
  | _, _ => true

end Rule

def Symbol.openers : Symbol → List TokenKind
  | kind k => [k]
  | rule r => r.openers

theorem TokenKind.mem_all (kind : TokenKind) : kind ∈ TokenKind.all := by
  rcases kind with word | sign | _ | _ | _ | _
  · cases word <;> decide
  · cases sign <;> decide
  all_goals decide

theorem Rule.mem_all (rule : Rule) : rule ∈ Rule.all := by
  cases rule <;> decide

namespace Rule

private theorem openers_of_matches {rule : Rule} {w : List Symbol}
    (fits : rule.tolerated.Matches w) :
    ∃ s rest, w = s :: rest ∧ ∀ kind ∈ s.openers, kind ∈ rule.openers := by
  have checked : all.all (fun rule => !rule.tolerated.nullable && rule.tolerated.symbols.all fun s =>
      rule.tolerated.after s == .never || s.openers.all rule.openers.contains) = true := by
    decide +kernel
  have checked := List.all_eq_true.mp checked rule rule.mem_all
  rw [Bool.and_eq_true] at checked
  obtain ⟨nonempty, firsts⟩ := checked
  cases w with
  | nil =>
    rw [Pattern.nullable_iff.mpr fits] at nonempty
    cases nonempty
  | cons s rest =>
    refine ⟨s, rest, rfl, fun kind member => ?_⟩
    exact List.contains_iff_mem.mp (List.all_eq_true.mp (fits.head firsts) kind member)

end Rule

namespace Tree

theorem Derivation.exists_first {tree : Tree} (derived : tree.Derivation Rule.tolerated) :
    ∃ token rest, tree.tokens = token :: rest ∧ token.kind ∈ tree.symbol.openers := by
  induction derived with
  | leaf token => exact ⟨token, [], rfl, List.mem_singleton.mpr rfl⟩
  | @branch rule children closed fits _ ih =>
    obtain ⟨s, word, read, covered⟩ := Rule.openers_of_matches fits
    obtain ⟨child, others, rfl, rfl, _⟩ := List.map_eq_cons_iff.mp read
    obtain ⟨token, rest, drawn, opening⟩ := ih child List.mem_cons_self
    exact ⟨token, rest ++ others.flatMap tokens, by simp [drawn], covered token.kind opening⟩

end Tree

end NandTools
