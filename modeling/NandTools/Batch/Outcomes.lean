import NandTools.Path

/-! What became of the files of a batch, and the orders in which a batch may work through them:
one file after another, or in chunks that several workers share. The work on a file is a function
of its path, its number and a state. -/
namespace NandTools

structure Outcomes (ε α : Type) where
  successes : List (Path × α)
  failures : List (Path × ε)
  /-- how many files were processed -/
  count : Nat
deriving Repr

namespace Outcomes

variable {ε α σ β : Type}

def empty : Outcomes ε α := ⟨[], [], 0⟩

def single (path : Path) : Except ε α → Outcomes ε α
  | .ok result => ⟨[(path, result)], [], 1⟩
  | .error reason => ⟨[], [(path, reason)], 1⟩

def append (first second : Outcomes ε α) : Outcomes ε α where
  successes := first.successes ++ second.successes
  failures := first.failures ++ second.failures
  count := first.count + second.count

/-- Put the files in path order. -/
def sorted (outcomes : Outcomes ε α) : Outcomes ε α where
  successes := outcomes.successes.mergeSort fun a b => (a.1.compare b.1).isLE
  failures := outcomes.failures.mergeSort fun a b => (a.1.compare b.1).isLE
  count := outcomes.count

def hasFailures (outcomes : Outcomes ε α) : Bool := !outcomes.failures.isEmpty

/-- Process files one after another, under the numbers from `first` on. With `failFast` the first
failure is the end. -/
def inTurn (failFast : Bool) (work : Path → Nat → σ → Except ε α × σ) (first : Nat) (state : σ) :
    List Path → Outcomes ε α × σ
  | [] => (empty, state)
  | path :: rest =>
    let (result, state) := work path first state
    let outcome := single path result
    if failFast && outcome.hasFailures then (outcome, state)
    else
      let (others, state) := inTurn failFast work (first + 1) state rest
      (outcome.append others, state)

/-- Cut a list into pieces of `size`, or of one if `size` is zero. The last may be shorter. -/
def chunks (size : Nat) (list : List β) : List (List β) :=
  match list with
  | [] => []
  | head :: tail => (head :: tail.take (size - 1)) :: chunks size (tail.drop (size - 1))
termination_by list.length
decreasing_by
  rw [List.length_drop]
  exact Nat.lt_succ_of_le (Nat.sub_le _ _)

/-- Pieces of `size` files, each with the number of its first file. -/
def pieces (size first : Nat) (files : List Path) : List (Nat × List Path) :=
  (chunks size files).zipIdx.map fun (piece, index) => (first + index * size, piece)

/-- How many groups of at most `size` hold `count` things. -/
def ceilDiv (count size : Nat) : Nat := (count + size - 1) / size

/-- The parts of a chunk that the workers take, one each. -/
def parts (threads first : Nat) (chunk : List Path) : List (Nat × List Path) :=
  pieces (max 1 (ceilDiv chunk.length threads)) first chunk

/-- Let a worker take the files of its part in turn, after what other workers have done. -/
def takePart (work : Path → Nat → σ → Except ε α × σ) (done : Outcomes ε α × σ)
    (part : Nat × List Path) : Outcomes ε α × σ :=
  let (outcomes, state) := inTurn false work part.1 done.2 part.2
  (done.1.append outcomes, state)

/-- Share a chunk among workers. Their outcomes are put together in the order of the workers. -/
def shared (threads : Nat) (work : Path → Nat → σ → Except ε α × σ) (first : Nat) (state : σ)
    (chunk : List Path) : Outcomes ε α × σ :=
  (parts threads first chunk).foldl (takePart work) (empty, state)

/-- Process chunks one after another. With `failFast` the first chunk with a failure is the end. -/
def inChunks (failFast : Bool) (threads : Nat) (work : Path → Nat → σ → Except ε α × σ)
    (state : σ) : List (Nat × List Path) → Outcomes ε α × σ
  | [] => (empty, state)
  | (first, chunk) :: rest =>
    let (outcomes, state) := shared threads work first state chunk
    if failFast && outcomes.hasFailures then (outcomes, state)
    else
      let (others, state) := inChunks failFast threads work state rest
      (outcomes.append others, state)

/-- Chunks hold an even share of the files for every thread, but at most fifty. -/
def chunkSize (files threads : Nat) : Nat := max 1 (min 50 (ceilDiv files (max 1 threads)))

/-- Process files on one thread. -/
def sequential (failFast : Bool) (work : Path → Nat → σ → Except ε α × σ) (state : σ)
    (files : List Path) : Outcomes ε α × σ :=
  inTurn failFast work 0 state files

/-- Process files on several threads. -/
def parallel (failFast : Bool) (threads : Nat) (work : Path → Nat → σ → Except ε α × σ)
    (state : σ) (files : List Path) : Outcomes ε α × σ :=
  let size := chunkSize files.length threads
  let (outcomes, state) := inChunks failFast threads work state (pieces size 0 files)
  (outcomes.sorted, state)

end Outcomes

end NandTools
