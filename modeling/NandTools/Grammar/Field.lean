import NandTools.Tree

/-! Fields: the places of a production that its children fill. -/
namespace NandTools

/-- What a field takes: one token, one of several, a class of tokens, one production or any
statement. -/
inductive Acceptance where
  | token (kind : TokenKind)
  | oneOf (kinds : List TokenKind)
  | type
  | binaryOperator
  | unaryOperator
  | identifier
  | constant
  | rule (rule : Rule)
  | statement
deriving Repr, DecidableEq, Inhabited

namespace Acceptance

def acceptsKind (kind : TokenKind) : Acceptance → Bool
  | token k => kind == k
  | oneOf kinds => kinds.contains kind
  | type => kind.isType
  | binaryOperator => kind.isBinaryOperator
  | unaryOperator => kind.isUnaryOperator
  | identifier => kind.isIdentifier
  | constant => kind.isLiteral
  | rule _ | statement => false

def acceptsRule (name : Rule) : Acceptance → Bool
  | rule r => name == r
  | statement => name.isStatement
  | _ => false

def accepts (acceptance : Acceptance) : Tree → Bool
  | .leaf leaf => acceptance.acceptsKind leaf.kind
  | .branch name _ _ => acceptance.acceptsRule name

def text : Acceptance → String
  | token kind => kind.describe
  | oneOf kinds => "one of " ++ ", ".intercalate (kinds.map TokenKind.describe)
  | type => "type"
  | binaryOperator => "binary operator"
  | unaryOperator => "unary operator"
  | identifier => "identifier"
  | constant => "constant"
  | rule r => r.name
  | statement => "statement"

end Acceptance

/-- A field belongs to a group; groups are filled in order. A match may move the reading on to
the next group, set the stage, end the production or demand that the field declared next takes
the next child. A chained field that has never matched hides the rest of its group. -/
structure Field where
  acceptance : Acceptance
  required : Bool := false
  repeatable : Bool := false
  group : Nat := 0
  leavesGroup : Bool := false
  stage? : Option Stage := none
  closes : Bool := false
  chained : Bool := false
  demandsNext : Bool := false
deriving Repr, DecidableEq

namespace Field

def of (acceptance : Acceptance) : Field := { acceptance }
def ofRule (rule : Rule) : Field := of (.rule rule)
def ofSign (sign : Sign) : Field := of (.token (.sign sign))
def ofKeyword (word : Keyword) : Field := of (.token (.keyword word))

def must (field : Field) : Field := { field with required := true }
def many (field : Field) : Field := { field with repeatable := true }
def inGroup (field : Field) (group : Nat) : Field := { field with group }
def leaving (field : Field) : Field := { field with leavesGroup := true }
def entering (field : Field) (stage : Stage) : Field := { field with stage? := some stage }
def closing (field : Field) : Field := { field with closes := true }
def chain (field : Field) : Field := { field with chained := true }
def demanding (field : Field) : Field := { field with demandsNext := true }

end Field

end NandTools
