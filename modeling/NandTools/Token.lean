/-! Words and signs of the Jack language. A token is its kind and the text it was read from;
string constants carry their contents without the quotes. -/
namespace NandTools

inductive Keyword where
  | class_ | constructor | function | method | field | static | var
  | int | char | boolean | void | true_ | false_ | null | this_
  | let_ | do_ | if_ | else_ | while_ | return_
deriving Repr, DecidableEq, Inhabited

namespace Keyword

def text : Keyword → String
  | class_ => "class"
  | constructor => "constructor"
  | function => "function"
  | method => "method"
  | field => "field"
  | static => "static"
  | var => "var"
  | int => "int"
  | char => "char"
  | boolean => "boolean"
  | void => "void"
  | true_ => "true"
  | false_ => "false"
  | null => "null"
  | this_ => "this"
  | let_ => "let"
  | do_ => "do"
  | if_ => "if"
  | else_ => "else"
  | while_ => "while"
  | return_ => "return"

/-- The name under which written trees record the keyword. -/
def name : Keyword → String
  | class_ => "Class"
  | constructor => "Constructor"
  | function => "Function"
  | method => "Method"
  | field => "Field"
  | static => "Static"
  | var => "Var"
  | int => "Int"
  | char => "Char"
  | boolean => "Boolean"
  | void => "Void"
  | true_ => "True"
  | false_ => "False"
  | null => "Null"
  | this_ => "This"
  | let_ => "Let"
  | do_ => "Do"
  | if_ => "If"
  | else_ => "Else"
  | while_ => "While"
  | return_ => "Return"

def all : List Keyword :=
  [class_, constructor, function, method, field, static, var, int, char, boolean, void,
    true_, false_, null, this_, let_, do_, if_, else_, while_, return_]

def ofText? (word : String) : Option Keyword := all.find? (·.text == word)

def isConstant : Keyword → Bool
  | true_ | false_ | null | this_ => true
  | _ => false

end Keyword

inductive Sign where
  | lbrace | rbrace | lparen | rparen | lbracket | rbracket
  | dot | comma | semicolon
  | plus | minus | asterisk | slash | ampersand | pipe
  | lessThan | greaterThan | equals | tilde
deriving Repr, DecidableEq, Inhabited

namespace Sign

def char : Sign → Char
  | lbrace => '{'
  | rbrace => '}'
  | lparen => '('
  | rparen => ')'
  | lbracket => '['
  | rbracket => ']'
  | dot => '.'
  | comma => ','
  | semicolon => ';'
  | plus => '+'
  | minus => '-'
  | asterisk => '*'
  | slash => '/'
  | ampersand => '&'
  | pipe => '|'
  | lessThan => '<'
  | greaterThan => '>'
  | equals => '='
  | tilde => '~'

/-- The name under which written trees record the sign. -/
def name : Sign → String
  | lbrace => "LBrace"
  | rbrace => "RBrace"
  | lparen => "LParen"
  | rparen => "RParen"
  | lbracket => "LBracket"
  | rbracket => "RBracket"
  | dot => "Dot"
  | comma => "Comma"
  | semicolon => "Semicolon"
  | plus => "Plus"
  | minus => "Minus"
  | asterisk => "Asterisk"
  | slash => "Slash"
  | ampersand => "Ampersand"
  | pipe => "Pipe"
  | lessThan => "LessThan"
  | greaterThan => "GreaterThan"
  | equals => "Equals"
  | tilde => "Tilde"

def all : List Sign :=
  [lbrace, rbrace, lparen, rparen, lbracket, rbracket, dot, comma, semicolon, plus, minus,
    asterisk, slash, ampersand, pipe, lessThan, greaterThan, equals, tilde]

def ofChar? (c : Char) : Option Sign := all.find? (·.char == c)

def isBinaryOperator : Sign → Bool
  | plus | minus | asterisk | slash | ampersand | pipe | lessThan | greaterThan | equals => true
  | _ => false

def isUnaryOperator : Sign → Bool
  | tilde | minus => true
  | _ => false

end Sign

inductive TokenKind where
  | keyword (word : Keyword)
  | sign (sign : Sign)
  | integer
  | string
  | identifier
  | endOfInput
deriving Repr, DecidableEq, Inhabited

namespace TokenKind

def all : List TokenKind :=
  Keyword.all.map keyword ++ Sign.all.map sign ++ [integer, string, identifier, endOfInput]

/-- The name under which written trees record the kind. -/
def name : TokenKind → String
  | keyword word => word.name
  | sign s => s.name
  | integer => "IntegerConstant"
  | string => "StringConstant"
  | identifier => "Identifier"
  | endOfInput => "Eof"

/-- The fixed text of keywords and signs, a descriptive name otherwise. -/
def text : TokenKind → String
  | keyword word => word.text
  | sign s => s.char.toString
  | integer => "integer constant"
  | string => "string constant"
  | identifier => "identifier"
  | endOfInput => "end of input"

/-- The element that holds a token of this kind in a written tree. -/
def element : TokenKind → String
  | keyword _ => "keyword"
  | sign _ => "symbol"
  | integer => "integerConstant"
  | string => "stringConstant"
  | identifier => "identifier"
  | endOfInput => "eof"

/-- A built-in type or a class name. -/
def isType : TokenKind → Bool
  | keyword .int | keyword .char | keyword .boolean | identifier => true
  | _ => false

def isBinaryOperator : TokenKind → Bool
  | sign s => s.isBinaryOperator
  | _ => false

def isUnaryOperator : TokenKind → Bool
  | sign s => s.isUnaryOperator
  | _ => false

def isIdentifier : TokenKind → Bool
  | identifier => true
  | _ => false

def isKeywordConstant : TokenKind → Bool
  | keyword word => word.isConstant
  | _ => false

/-- Terms that stand for themselves. -/
def isLiteral : TokenKind → Bool
  | integer | string => true
  | kind => kind.isKeywordConstant

def isEnd : TokenKind → Bool
  | endOfInput => true
  | _ => false

/-- Fixed tokens are quoted, classes of tokens are named. -/
def describe : TokenKind → String
  | keyword word => s!"'{word.text}'"
  | sign s => s!"'{s.char}'"
  | kind => kind.text

end TokenKind

structure Token where
  kind : TokenKind
  literal : String
deriving Repr, DecidableEq, Inhabited

namespace Token

def fixed (kind : TokenKind) : Token := ⟨kind, kind.text⟩

def endOfInput : Token := ⟨.endOfInput, ""⟩

def isEnd (token : Token) : Bool := token.kind.isEnd

def display (token : Token) : String :=
  match token.kind with
  | .endOfInput => "end of input"
  | .string => s!"\"{token.literal}\""
  | _ => token.literal

end Token

end NandTools
