import NandTools.JsonValue
import NandTools.Tree

/-! Parse trees as JSON values. -/
namespace NandTools.Tree

mutual

def toJson : Tree → JsonValue
  | leaf token =>
    .object [("kind", .string token.kind.name), ("literal", .string token.literal)]
  | branch rule children closed =>
    .object [("rule", .string rule.name), ("children", .array (allToJson children)),
      ("closed", .bool closed)]

def allToJson : List Tree → List JsonValue
  | [] => []
  | tree :: rest => toJson tree :: allToJson rest

end

def json (pretty : Bool) (tree : Tree) : String :=
  if pretty then tree.toJson.pretty else tree.toJson.compact

end NandTools.Tree
