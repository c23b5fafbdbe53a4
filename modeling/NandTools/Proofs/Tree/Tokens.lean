import NandTools.Tree

/-! The tokens of a tree are those of its children, one child after the other. -/
namespace NandTools.Tree

mutual

private theorem pushTokens_eq (seen : List Token) :
    (tree : Tree) → pushTokens seen tree = pushTokens [] tree ++ seen
  | leaf _ => rfl
  | branch _ children _ => pushAllTokens_eq seen children

private theorem pushAllTokens_eq (seen : List Token) :
    (trees : List Tree) → pushAllTokens seen trees = pushAllTokens [] trees ++ seen
  | [] => rfl
  | tree :: rest => by
    rw [pushAllTokens, pushAllTokens, pushAllTokens_eq, pushTokens_eq seen tree,
      pushAllTokens_eq (pushTokens [] tree) rest, List.append_assoc]

end

@[simp] theorem tokens_leaf (token : Token) : (leaf token).tokens = [token] := rfl

@[simp] theorem tokens_branch (rule : Rule) (children : List Tree) (closed : Bool) :
    (branch rule children closed).tokens = children.flatMap tokens := by
  rw [tokens, pushTokens]
  induction children with
  | nil => rfl
  | cons tree rest ih =>
    rw [pushAllTokens, pushAllTokens_eq, List.reverse_append, ih]
    rfl

end NandTools.Tree
