import Mathlib.Data.List.Basic
import NandTools.Batch.Outcomes
import NandTools.Proofs.Outcome
import NandTools.Proofs.Path.Order

/-! The outcomes of files when each depends on the file alone, and how far a batch gets that stops
at failures. -/
namespace NandTools.Outcomes

variable {ε α σ : Type}

section Append

variable (first second third : Outcomes ε α)

theorem empty_append : empty.append first = first := by
  simp [append, empty]

theorem append_empty : first.append empty = first := by
  simp [append, empty]

theorem append_assoc : (first.append second).append third = first.append (second.append third) := by
  simp [append, Nat.add_assoc]

theorem hasFailures_append :
    (first.append second).hasFailures = (first.hasFailures || second.hasFailures) := by
  rw [hasFailures, hasFailures, hasFailures, append, ← Bool.not_and]
  cases first.failures <;> rfl

end Append

/-- The outcomes of files, one after another. -/
def ofFiles (outcome : Path → Except ε α) : List Path → Outcomes ε α
  | [] => empty
  | path :: rest => (single path (outcome path)).append (ofFiles outcome rest)

/-- Why the work on a file failed. -/
def reason? (outcome : Path → Except ε α) (path : Path) : Option ε :=
  match outcome path with
  | .ok _ => none
  | .error reason => some reason

def fails (outcome : Path → Except ε α) (path : Path) : Bool := !(outcome path).isOk

section Files

variable (outcome : Path → Except ε α)

theorem hasFailures_single (path : Path) :
    (single path (outcome path)).hasFailures = fails outcome path := by
  unfold fails
  cases outcome path <;> rfl

theorem ofFiles_append (first second : List Path) :
    ofFiles outcome (first ++ second) = (ofFiles outcome first).append (ofFiles outcome second) := by
  induction first with
  | nil => exact (empty_append _).symm
  | cons path rest ih => rw [List.cons_append, ofFiles, ofFiles, ih, append_assoc]

theorem hasFailures_ofFiles (files : List Path) :
    (ofFiles outcome files).hasFailures = files.any (fails outcome) := by
  induction files with
  | nil => rfl
  | cons path rest ih => rw [ofFiles, hasFailures_append, ih, hasFailures_single, List.any_cons]

theorem successes_ofFiles (files : List Path) : (ofFiles outcome files).successes =
    files.filterMap fun path => (outcome path).toOption.map (path, ·) := by
  induction files with
  | nil => rfl
  | cons path rest ih =>
    rw [ofFiles, append, ih, List.filterMap_cons]
    cases outcome path <;> rfl

theorem failures_ofFiles (files : List Path) : (ofFiles outcome files).failures =
    files.filterMap fun path => (reason? outcome path).map (path, ·) := by
  induction files with
  | nil => rfl
  | cons path rest ih =>
    rw [ofFiles, append, ih, List.filterMap_cons, reason?]
    cases outcome path <;> rfl

theorem mem_successes {files : List Path} {path : Path} {result : α} :
    (path, result) ∈ (ofFiles outcome files).successes ↔
      path ∈ files ∧ outcome path = .ok result := by
  rw [successes_ofFiles, List.mem_filterMap]
  constructor
  · rintro ⟨path, among, found⟩
    obtain ⟨result, succeeds, same⟩ := Option.map_eq_some_iff.mp found
    cases same
    exact ⟨among, Except.ok_of_toOption succeeds⟩
  · rintro ⟨among, succeeds⟩
    exact ⟨path, among, by rw [succeeds]; rfl⟩

/-- Entries of files in path order are in path order. -/
private theorem ordered_entries {β : Type} {files : List Path} (ordered : Path.Ordered files)
    (value? : Path → Option β) :
    (files.filterMap fun path => (value? path).map (path, ·)).Pairwise fun a b =>
      (a.1.compare b.1).isLE := by
  rw [List.pairwise_filterMap]
  apply ordered.imp
  intro a b before entry found entry' found'
  obtain ⟨_, _, rfl⟩ := Option.map_eq_some_iff.mp found
  obtain ⟨_, _, rfl⟩ := Option.map_eq_some_iff.mp found'
  exact before

/-- The outcomes of files in path order need no sorting. -/
theorem sorted_ofFiles {files : List Path} (ordered : Path.Ordered files) :
    (ofFiles outcome files).sorted = ofFiles outcome files := by
  have successes := List.mergeSort_of_pairwise
    (ordered_entries ordered fun path => (outcome path).toOption)
  have failures := List.mergeSort_of_pairwise (ordered_entries ordered (reason? outcome))
  rw [← successes_ofFiles] at successes
  rw [← failures_ofFiles] at failures
  rw [sorted, successes, failures]

end Files

section Reach

variable (failFast : Bool) {size : Nat} (outcome : Path → Except ε α) (files : List Path)

/-- How many files a batch processes that looks for failures after every `size` files. -/
def reach (failFast : Bool) (size : Nat) (outcome : Path → Except ε α) (files : List Path) : Nat :=
  if failFast then (files.findIdx (fails outcome) / size + 1) * size else files.length

/-- The files that such a batch processes. -/
def reached (failFast : Bool) (size : Nat) (outcome : Path → Except ε α) (files : List Path) :
    List Path :=
  files.take (reach failFast size outcome files)

/-- Without `failFast` all files are reached. -/
theorem reached_of_goes_on (size : Nat) : reached false size outcome files = files :=
  List.take_length

/-- The batch ends after the first piece with a failure, or else goes on with the rest. -/
theorem reached_eq (positive : 0 < size) :
    reached failFast size outcome files =
      if failFast && (files.take size).any (fails outcome) then files.take size
      else files.take size ++ reached failFast size outcome (files.drop size) := by
  unfold reached
  cases failFast with
  | false =>
    simp only [reach, Bool.false_and, Bool.false_eq_true, if_false, List.take_length,
      List.take_append_drop]
  | true =>
    have split := @List.findIdx_append _ (fails outcome) (files.take size) (files.drop size)
    rw [List.take_append_drop] at split
    simp only [reach, if_true, Bool.true_and]
    by_cases found : (files.take size).any (fails outcome) = true
    · rw [if_pos found]
      have first : (files.take size).findIdx (fails outcome) < (files.take size).length :=
        List.findIdx_lt_length.mpr (List.any_eq_true.mp found)
      have inside : files.findIdx (fails outcome) < size := by
        rw [split, if_pos first]
        exact Nat.lt_of_lt_of_le first (List.length_take_le size files)
      rw [Nat.div_eq_of_lt inside, Nat.zero_add, Nat.one_mul]
    · rw [if_neg found]
      have none : ¬(files.take size).findIdx (fails outcome) < (files.take size).length :=
        fun first => found (List.any_eq_true.mpr (List.findIdx_lt_length.mp first))
      rw [if_neg none] at split
      by_cases long : size ≤ files.length
      · rw [List.length_take, Nat.min_eq_left long] at split
        rw [split, Nat.add_div_right _ positive, Nat.add_mul _ 1, Nat.one_mul, Nat.add_comm,
          List.take_add]
      · have short : files.length ≤ size := Nat.le_of_not_le long
        rw [List.drop_eq_nil_of_le short] at split ⊢
        rw [List.take_nil, List.append_nil]
        apply (List.take_of_length_le _).trans (List.take_of_length_le short).symm
        exact Nat.le_trans short (Nat.le_mul_of_pos_left size (Nat.succ_pos _))

end Reach

end NandTools.Outcomes
