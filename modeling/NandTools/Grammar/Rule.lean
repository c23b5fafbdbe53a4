/-! Names of the productions of the Jack grammar, and the stages a production passes through
while it is being read. -/
namespace NandTools

inductive Rule where
  | class_ | classVarDec | subroutineDec | parameterList | subroutineBody | varDec
  | letStatement | ifStatement | whileStatement | doStatement | returnStatement
  | expression | term | subroutineCall | expressionList
deriving Repr, DecidableEq, Inhabited

namespace Rule

def all : List Rule :=
  [class_, classVarDec, subroutineDec, parameterList, subroutineBody, varDec, letStatement,
    ifStatement, whileStatement, doStatement, returnStatement, expression, term, subroutineCall,
    expressionList]

def name : Rule → String
  | class_ => "class"
  | classVarDec => "classVarDec"
  | subroutineDec => "subroutineDec"
  | parameterList => "parameterList"
  | subroutineBody => "subroutineBody"
  | varDec => "varDec"
  | letStatement => "letStatement"
  | ifStatement => "ifStatement"
  | whileStatement => "whileStatement"
  | doStatement => "doStatement"
  | returnStatement => "returnStatement"
  | expression => "expression"
  | term => "term"
  | subroutineCall => "subroutineCall"
  | expressionList => "expressionList"

def ofName? (name : String) : Option Rule := all.find? (·.name == name)

def isStatement : Rule → Bool
  | letStatement | ifStatement | whileStatement | doStatement | returnStatement => true
  | _ => false

end Rule

/-- How far the reading of one production has come, as far as this decides what the next token
may open. -/
inductive Stage where
  | initial
  | afterSubroutineName
  | expectingExpression
  | afterIndexExpression
  | inBlock
  | afterBody
  | afterTerm
  | afterOperator
  | afterUnaryOperator
  | inParentheses
  | inSubscript
  | afterIdentifier
  | afterCall
  | inArguments
deriving Repr, DecidableEq, Inhabited

def Stage.all : List Stage :=
  [.initial, .afterSubroutineName, .expectingExpression, .afterIndexExpression, .inBlock,
    .afterBody, .afterTerm, .afterOperator, .afterUnaryOperator, .inParentheses, .inSubscript,
    .afterIdentifier, .afterCall, .inArguments]

end NandTools
