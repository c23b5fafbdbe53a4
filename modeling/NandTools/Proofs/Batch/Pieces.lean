import NandTools.Batch.Outcomes

/-! The files of a batch are cut twice, into chunks and the chunks into parts. The pieces hold every
file once, in order and under the number of its place. -/
namespace NandTools.Outcomes

variable {size first : Nat} {files : List Path}

theorem pieces_nil : pieces size first [] = [] := by
  rw [pieces, chunks]
  rfl

private theorem chunks_of_ne_nil (positive : 0 < size) (nonempty : files ≠ []) :
    chunks size files = files.take size :: chunks size (files.drop size) := by
  cases files with
  | nil => exact absurd rfl nonempty
  | cons head tail =>
    cases size with
    | zero => exact absurd positive (Nat.lt_irrefl 0)
    | succ less => rw [chunks]; simp

/-- The first piece holds the first files; the others are pieces of the rest. -/
theorem pieces_of_ne_nil (positive : 0 < size) (nonempty : files ≠ []) :
    pieces size first files =
      (first, files.take size) :: pieces size (first + size) (files.drop size) := by
  rw [pieces, pieces, chunks_of_ne_nil positive nonempty, List.zipIdx_cons, List.map_cons,
    Nat.zero_add, List.zipIdx_succ, List.map_map]
  simp [Function.comp_def, Nat.add_mul, Nat.add_assoc, Nat.add_comm size]

/-- Pieces are taken off until no file is left. -/
theorem pieces_induction {motive : Nat → List Path → Prop} (positive : 0 < size)
    (done : ∀ first, motive first [])
    (next : ∀ first files, files ≠ [] → motive (first + size) (files.drop size) →
      motive first files) (first : Nat) (files : List Path) : motive first files := by
  induction same : files.length using Nat.strongRecOn generalizing first files with
  | ind length ih =>
    by_cases empty : files = []
    · rw [empty]
      exact done first
    · apply next first files empty
      have some := List.length_pos_iff.mpr empty
      apply ih _ _ _ _ rfl
      rw [List.length_drop]
      omega

theorem zipIdx_take_drop (size first : Nat) (files : List Path) :
    files.zipIdx first =
      (files.take size).zipIdx first ++ (files.drop size).zipIdx (first + size) := by
  conv => lhs; rw [← List.take_append_drop size files]
  rw [List.zipIdx_append, List.length_take]
  by_cases long : size ≤ files.length
  · rw [Nat.min_eq_left long]
  · rw [List.drop_eq_nil_of_le (by omega)]
    rfl

theorem zipIdx_take_append (size count first : Nat) (files : List Path) :
    (files.take size ++ (files.drop size).take count).zipIdx first =
      (files.take size).zipIdx first ++ ((files.drop size).take count).zipIdx (first + size) := by
  rw [← List.take_add, zipIdx_take_drop size first, List.take_take,
    Nat.min_eq_left (Nat.le_add_right size count), List.drop_take, Nat.add_sub_cancel_left]

/-- Every file stands in one piece, and the pieces number it by its place. -/
theorem zipIdx_pieces (positive : 0 < size) (first : Nat) (files : List Path) :
    (pieces size first files).flatMap (fun piece => piece.2.zipIdx piece.1) =
      files.zipIdx first := by
  induction first, files using pieces_induction positive with
  | done first => rw [pieces_nil]; rfl
  | next first files nonempty ih =>
    rw [pieces_of_ne_nil positive nonempty, List.flatMap_cons, ih]
    exact (zipIdx_take_drop size first files).symm

/-- The parts of a chunk hold each of its files once. -/
theorem zipIdx_parts (threads first : Nat) (chunk : List Path) :
    (parts threads first chunk).flatMap (fun part => part.2.zipIdx part.1) =
      chunk.zipIdx first :=
  zipIdx_pieces (Nat.lt_of_lt_of_le Nat.one_pos (Nat.le_max_left 1 _)) first chunk

theorem chunkSize_pos (files threads : Nat) : 0 < chunkSize files threads :=
  Nat.lt_of_lt_of_le Nat.one_pos (Nat.le_max_left 1 _)

end NandTools.Outcomes
