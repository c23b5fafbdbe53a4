import NandTools.Grammar.Field
import NandTools.Source.Span
import NandTools.Token.Error

/-! Reasons why tokens form no construct of the language. -/
namespace NandTools

open NandTools.Source

/-- What would have been welcome where an error was met. -/
inductive Expectation where
  | nothing
  | field (acceptance : Acceptance)
  | startOf (rule : Rule)
deriving Repr, DecidableEq

def Expectation.text : Expectation → String
  | nothing => "nothing"
  | field acceptance => acceptance.text
  | startOf rule => s!"start of {rule.name}"

inductive SyntaxError where
  | emptyInput
  | incompleteRule (rule : Rule) (expected : Expectation) (found : Token) (span : Span)
  | unexpectedToken (expected : Expectation) (found : Token) (span : Span)
  | trailingInput (found : Token) (span : Span)
  | maxRecursionDepth (depth : Nat)
  | misplacedRule (rule enclosing : Rule) (span : Span)
  | lexical (cause : LexicalError)
deriving Repr, DecidableEq

namespace SyntaxError

def message : SyntaxError → String
  | emptyInput => "Empty input: no tokens to parse"
  | incompleteRule rule expected found span =>
    s!"Incomplete {rule.name}: expected {expected.text}, found {found.display} at {span.display}"
  | unexpectedToken expected found span =>
    s!"Unexpected token: expected {expected.text}, found {found.display} at {span.display}"
  | trailingInput found span =>
    s!"Unexpected {found.display} after the end of the class at {span.display}"
  | maxRecursionDepth depth => s!"Maximum parse depth {depth} exceeded"
  | misplacedRule rule enclosing span =>
    s!"{rule.name} is not allowed here inside {enclosing.name} at {span.display}"
  | lexical cause => s!"Lexical error: {cause.message}"

def code : SyntaxError → Code
  | emptyInput => .emptyInput
  | incompleteRule .. => .incompleteRule
  | unexpectedToken .. => .unexpectedToken
  | trailingInput .. => .trailingInput
  | maxRecursionDepth _ => .parseDepth
  | misplacedRule .. => .misplacedRule
  | lexical _ => .lexicalFailure

def span? : SyntaxError → Option Span
  | incompleteRule _ _ _ span | unexpectedToken _ _ span | trailingInput _ span
  | misplacedRule _ _ span => some span
  | emptyInput | maxRecursionDepth _ | lexical _ => none

end SyntaxError

end NandTools
