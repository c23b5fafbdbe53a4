import NandTools.Tree

/-! Parse trees as XML. A branch is an element named after its production, a leaf an element named
after its kind of token; the children of a call stand directly in what holds the call. -/
namespace NandTools.Tree

/-- A tag, or a whole element without children, at its depth in the tree. -/
structure XmlLine where
  depth : Nat
  text : String
deriving Repr, DecidableEq

def escapeXml (c : Char) : List Char :=
  if c = '<' then "&lt;".toList
  else if c = '>' then "&gt;".toList
  else if c = '&' then "&amp;".toList
  else if c = '\'' then "&apos;".toList
  else if c = '"' then "&quot;".toList
  else [c]

def escapeXmlText (text : String) : String := String.ofList (text.toList.flatMap escapeXml)

def leafXml (token : Token) : String :=
  let name := token.kind.element
  s!"<{name}> {escapeXmlText token.literal} </{name}>"

mutual

/-- Put the lines of a tree before `seen`, last one first. -/
def pushXml (depth : Nat) (seen : List XmlLine) : Tree → List XmlLine
  | leaf token => ⟨depth, leafXml token⟩ :: seen
  | branch .subroutineCall children _ => pushAllXml depth seen children
  | branch rule children _ =>
    ⟨depth, s!"</{rule.name}>"⟩ ::
      pushAllXml (depth + 1) (⟨depth, s!"<{rule.name}>"⟩ :: seen) children

def pushAllXml (depth : Nat) (seen : List XmlLine) : List Tree → List XmlLine
  | [] => seen
  | tree :: rest => pushAllXml depth (pushXml depth seen tree) rest

end

def xmlLines (tree : Tree) : List XmlLine := (pushXml 0 [] tree).reverse

/-- Lines are indented by their depth and separated by line feeds; with no indent they run on.
A line feed ends the text. -/
def xml (indent : Nat) (tree : Tree) : String :=
  let place (line : XmlLine) : String := "".pushn ' ' (indent * line.depth) ++ line.text
  let separator := if indent = 0 then "" else "\n"
  separator.intercalate (tree.xmlLines.map place) ++ "\n"

end NandTools.Tree
