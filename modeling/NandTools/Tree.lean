import NandTools.Grammar.Rule
import NandTools.Token

/-! Parse trees: tokens at the leaves, productions at the branches. A branch is closed when a
token has marked its end. -/
namespace NandTools

inductive Tree where
  | leaf (token : Token)
  | branch (rule : Rule) (children : List Tree) (closed : Bool)
deriving Repr, Inhabited

namespace Tree

def rule? : Tree → Option Rule
  | leaf _ => none
  | branch rule _ _ => some rule

def token? : Tree → Option Token
  | leaf token => some token
  | branch .. => none

def children : Tree → List Tree
  | leaf _ => []
  | branch _ children _ => children

def isRule (tree : Tree) (rule : Rule) : Bool := tree.rule? == some rule

mutual

/-- Put the tokens of a tree before `seen`, last one first. -/
def pushTokens (seen : List Token) : Tree → List Token
  | leaf token => token :: seen
  | branch _ children _ => pushAllTokens seen children

def pushAllTokens (seen : List Token) : List Tree → List Token
  | [] => seen
  | tree :: rest => pushAllTokens (pushTokens seen tree) rest

end

/-- Every token under the tree, in the order of the text. -/
def tokens (tree : Tree) : List Token := (pushTokens [] tree).reverse

/-- The children that are branches of `rule`. -/
def childRules (tree : Tree) (rule : Rule) : List Tree := tree.children.filter (·.isRule rule)

def childTokens (tree : Tree) : List Token := tree.children.filterMap token?

/-- The name of a class: its second child. -/
def className? (tree : Tree) : Option String :=
  match tree with
  | branch .class_ (_ :: leaf name :: _) _ => some name.literal
  | _ => none

end Tree

end NandTools
