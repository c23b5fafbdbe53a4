import NandTools.Path

/-! Values kept by path, in path order. -/
namespace NandTools

abbrev PathMap (α : Type) := List (Path × α)

namespace PathMap

variable {α : Type}

/-- Change the value at a path, or enter one. The spelling that came first is kept. -/
def update (path : Path) (f : Option α → α) : PathMap α → PathMap α
  | [] => [(path, f none)]
  | (other, value) :: rest =>
    match path.compare other with
    | .lt => (path, f none) :: (other, value) :: rest
    | .eq => (other, f (some value)) :: rest
    | .gt => (other, value) :: update path f rest

def insert (path : Path) (value : α) (map : PathMap α) : PathMap α := update path (fun _ => value) map

def find? (map : PathMap α) (path : Path) : Option α :=
  (List.find? (fun entry => entry.1.compare path == .eq) map).map (·.2)

def has (map : PathMap α) (path : Path) : Bool := (find? map path).isSome

end PathMap

end NandTools
