import NandTools.Grammar.Field

/-! The productions of the Jack grammar as lists of fields, and the tokens that open one
production inside another. -/
namespace NandTools.Rule

open NandTools.Field Keyword Sign

private def name_ : Field := of (.token .identifier)

private def separated (group : Nat) : Field := (ofSign comma).many.demanding.inGroup group

private def ending : Field := (ofSign semicolon).must.closing

private def statements : Field := (of .statement).many

/-- A declaration of variables: its first word, a type, names between commas, a semicolon. -/
private def declaration (leading : List Keyword) : List Field :=
  [(of (.oneOf (leading.map .keyword))).must, (of .type).must, name_.must,
    separated 1, name_.many.inGroup 1, ending.inGroup 1]

/-- The fields of a production, in the order of their groups. -/
def fields : Rule → List Field
  | class_ =>
    [(ofKeyword .class_).must, name_.must, (ofSign lbrace).must, (ofRule classVarDec).many,
      (ofRule subroutineDec).many.inGroup 1, (ofSign rbrace).must.closing.inGroup 1]
  | classVarDec => declaration [static, field]
  | subroutineDec =>
    [(of (.oneOf [.keyword constructor, .keyword function, .keyword method])).must,
      (of .type).inGroup 1 |>.leaving,
      (ofKeyword void).inGroup 1 |>.leaving,
      name_.must.inGroup 2 |>.entering .afterSubroutineName,
      (ofSign lparen).must.inGroup 2,
      (ofRule parameterList).inGroup 2,
      (ofSign rparen).must.inGroup 2,
      (ofRule subroutineBody).must.closing.inGroup 2]
  | parameterList =>
    [(of .type).must, name_.must, separated 1, (of .type).many.demanding.inGroup 1,
      name_.many.inGroup 1]
  | subroutineBody =>
    [(ofSign lbrace).must, (ofRule varDec).many, statements.inGroup 1,
      (ofSign rbrace).must.closing.inGroup 1]
  | varDec => declaration [var]
  | letStatement =>
    [(ofKeyword let_).must, name_.must,
      (ofSign lbracket).demanding.inGroup 1 |>.entering .expectingExpression,
      (ofRule expression).demanding.inGroup 1 |>.entering .afterIndexExpression,
      (ofSign rbracket).inGroup 1,
      (ofSign equals).must.inGroup 2 |>.entering .expectingExpression,
      (ofRule expression).must.inGroup 2,
      ending.inGroup 2]
  | ifStatement =>
    [(ofKeyword if_).must,
      (ofSign lparen).must.entering .expectingExpression,
      (ofRule expression).must.entering .inBlock,
      (ofSign rparen).must, (ofSign lbrace).must, statements,
      (ofSign rbrace).must.entering .afterBody |>.leaving,
      (ofKeyword else_).chain.demanding.inGroup 1,
      (ofSign lbrace).inGroup 1 |>.entering .inBlock,
      statements.inGroup 1,
      (ofSign rbrace).closing.inGroup 1]
  | whileStatement =>
    [(ofKeyword while_).must,
      (ofSign lparen).must.entering .expectingExpression,
      (ofRule expression).must.entering .inBlock,
      (ofSign rparen).must, (ofSign lbrace).must, statements, (ofSign rbrace).must.closing]
  | doStatement => [(ofKeyword do_).must, (ofRule subroutineCall).must, ending]
  | returnStatement => [(ofKeyword return_).must, ofRule expression, ending]
  | expression =>
    [(ofRule term).must.entering .afterTerm,
      (of .binaryOperator).many.chain.demanding.inGroup 1 |>.entering .afterOperator,
      (ofRule term).many.inGroup 1 |>.entering .afterTerm]
  | term =>
    [(of .unaryOperator).chain.demanding.entering .afterUnaryOperator,
      (ofRule term).closing,
      (ofSign lparen).chain.demanding.inGroup 1 |>.entering .inParentheses,
      (ofRule expression).demanding.inGroup 1,
      (ofSign rparen).closing.inGroup 1,
      (of .identifier).inGroup 2 |>.entering .afterIdentifier,
      (ofSign lbracket).chain.demanding.inGroup 3 |>.entering .inSubscript,
      (ofRule expression).demanding.inGroup 3,
      (ofSign rbracket).closing.inGroup 3,
      (ofRule subroutineCall).closing.inGroup 4 |>.entering .afterCall,
      (of .constant).closing.inGroup 5]
  | subroutineCall =>
    [name_.must, (ofSign dot).chain.demanding.inGroup 1, name_.inGroup 1,
      (ofSign lparen).must.chain.inGroup 2 |>.entering .inArguments,
      (ofRule expressionList).inGroup 2,
      (ofSign rparen).must.closing.inGroup 2]
  | expressionList =>
    [(ofRule expression).chain, separated 1, (ofRule expression).many.inGroup 1]

/-- The number of groups of a production. -/
def groups (rule : Rule) : Nat := (rule.fields.getLast?.map (·.group + 1)).getD 0

def fieldsIn (rule : Rule) (group : Nat) : List Field := rule.fields.filter (·.group == group)

/-- Tokens that can begin a term, and with it an expression. -/
def startsTerm : TokenKind → Bool
  | .identifier | .integer | .string => true
  | .sign s => s == lparen || s == tilde || s == minus
  | .keyword word => word.isConstant
  | .endOfInput => false

def statementOf? : TokenKind → Option Rule
  | .keyword .let_ => some letStatement
  | .keyword .if_ => some ifStatement
  | .keyword .while_ => some whileStatement
  | .keyword .do_ => some doStatement
  | .keyword .return_ => some returnStatement
  | _ => none

/-- The production that `kind` opens inside `enclosing` at a stage; outside of any production
only a class can be opened. Without one the token itself is the next child. -/
def opened? (enclosing : Option Rule) (stage : Stage) (kind : TokenKind) : Option Rule :=
  let opens (rule : Rule) : Option Rule := if startsTerm kind then some rule else none
  match enclosing, stage with
  | none, .initial => if kind = .keyword .class_ then some class_ else none
  | some class_, .initial =>
    match kind with
    | .keyword .static | .keyword .field => some classVarDec
    | .keyword .constructor | .keyword .function | .keyword .method => some subroutineDec
    | _ => none
  | some subroutineDec, .afterSubroutineName =>
    if kind.isType then some parameterList
    else if kind = .sign lbrace then some subroutineBody
    else none
  | some subroutineBody, .initial =>
    if kind = .keyword .var then some varDec else statementOf? kind
  | some ifStatement, .inBlock | some whileStatement, .inBlock => statementOf? kind
  | some doStatement, .initial => if kind = .identifier then some subroutineCall else none
  | some letStatement, .expectingExpression | some ifStatement, .expectingExpression
  | some whileStatement, .expectingExpression | some returnStatement, .initial
  | some expressionList, .initial | some term, .inParentheses | some term, .inSubscript =>
    opens expression
  | some expression, .initial | some expression, .afterOperator
  | some term, .afterUnaryOperator => opens term
  | some subroutineCall, .inArguments => opens expressionList
  | some term, .afterIdentifier =>
    if kind = .sign dot || kind = .sign lparen then some subroutineCall else none
  | _, _ => none

/-- Every combination of enclosing production, stage and token that opens a production. -/
def openings : List (Option Rule × Stage × TokenKind) :=
  (none :: all.map some).flatMap fun enclosing =>
    Stage.all.flatMap fun stage =>
      (TokenKind.all.filter fun kind => (opened? enclosing stage kind).isSome).map fun kind =>
        (enclosing, stage, kind)

end NandTools.Rule
