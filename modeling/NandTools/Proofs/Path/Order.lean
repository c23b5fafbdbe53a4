import Mathlib.Order.Defs.LinearOrder
import NandTools.Path

/-! Paths are ordered by their steps. -/
namespace NandTools

namespace PathStep

/-- What a name is called. Other steps are told apart by their rank. -/
def text : PathStep → String
  | name text => text
  | _ => ""

theorem compare_eq (a b : PathStep) :
    compare a b = compareLex (compareOn rank) (compareOn text) a b := by
  cases a <;> cases b <;> rfl

instance : Std.TransCmp PathStep.compare := by
  have lexicographic : PathStep.compare = compareLex (compareOn rank) (compareOn text) :=
    funext fun a => funext fun b => compare_eq a b
  rw [lexicographic]
  infer_instance

instance : Std.LawfulEqCmp PathStep.compare where
  eq_of_compare {a b} same := by
    rw [compare_eq] at same
    obtain ⟨ranks, texts⟩ := compareLex_eq_eq.mp same
    have ranks := Nat.compare_eq_eq.mp ranks
    cases a <;> cases b <;> simp_all [rank, text, compareOn]

end PathStep

namespace Path

instance : Std.TransCmp Path.compare where
  eq_swap {a _} :=
    (inferInstance : Std.TransCmp (List.compareLex PathStep.compare)).eq_swap (a := a.steps)
  isLE_trans := (inferInstance : Std.TransCmp (List.compareLex PathStep.compare)).isLE_trans

/-- Paths that compare as equal have the same steps. -/
theorem compare_eq_eq_iff {a b : Path} : a.compare b = .eq ↔ a.steps = b.steps :=
  @Std.LawfulEqCmp.compare_eq_iff_eq _ (List.compareLex PathStep.compare) _ _ _

/-- Paths that stand in path order. -/
def Ordered (paths : List Path) : Prop := paths.Pairwise fun a b => (a.compare b).isLE

theorem ordered_sorted (paths : List Path) : Ordered (sorted paths) := by
  refine List.pairwise_mergeSort (fun _ _ _ => Std.TransCmp.isLE_trans) (fun a b => ?_) paths
  have swapped : b.compare a = (a.compare b).swap := Std.OrientedCmp.eq_swap
  rw [swapped]
  cases a.compare b <;> rfl

theorem sorted_of_ordered {paths : List Path} (ordered : Ordered paths) : sorted paths = paths :=
  List.mergeSort_of_pairwise ordered

end Path

end NandTools
