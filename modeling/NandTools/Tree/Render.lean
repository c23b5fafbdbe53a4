import NandTools.Preferences
import NandTools.Tree.Json
import NandTools.Tree.Xml

/-! The text of a tree in the format a user prefers. -/
namespace NandTools

def Tree.render (preferences : TreePreferences) (tree : Tree) : String :=
  match preferences.format with
  | .xml => tree.xml preferences.indent
  | .json => tree.json preferences.pretty

end NandTools
