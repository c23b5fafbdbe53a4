import NandTools.Tree

/-! The height of a tree, and the tree without its closing marks. -/
namespace NandTools.Tree

mutual

/-- The number of productions that are nested in one another. -/
def height : Tree → Nat
  | leaf _ => 0
  | branch _ children _ => tallest children + 1

def tallest : List Tree → Nat
  | [] => 0
  | tree :: rest => max tree.height (tallest rest)

end

theorem height_le_tallest {tree : Tree} {trees : List Tree} (member : tree ∈ trees) :
    tree.height ≤ tallest trees := by
  induction trees with
  | nil => cases member
  | cons first rest ih =>
    rw [tallest]
    rcases List.mem_cons.mp member with rfl | later
    · exact Nat.le_max_left _ _
    · exact Nat.le_trans (ih later) (Nat.le_max_right _ _)

mutual

/-- The tree, each of its branches left open. -/
def bare : Tree → Tree
  | leaf token => leaf token
  | branch rule children _ => branch rule (allBare children) false

def allBare : List Tree → List Tree
  | [] => []
  | tree :: rest => tree.bare :: allBare rest

end

theorem allBare_eq_map (trees : List Tree) : allBare trees = trees.map bare := by
  induction trees with
  | nil => rfl
  | cons tree rest ih => rw [allBare, ih, List.map_cons]

theorem bare_branch (rule : Rule) (children : List Tree) (closed : Bool) :
    (branch rule children closed).bare = branch rule (children.map bare) false := by
  rw [bare, allBare_eq_map]

end NandTools.Tree
