import NandTools.Proofs.Batch.Files
import NandTools.Proofs.Batch.Pieces

/-! Workers that share a chunk take turns in any order. A schedule says which files are taken one
after another and under which numbers; taking a file is one step. -/
namespace NandTools.Outcomes

variable {ε α σ : Type}

/-- A worker has files that wait, the first of them under the number `next`, and outcomes. -/
structure Worker (ε α : Type) where
  next : Nat
  waiting : List Path
  outcomes : Outcomes ε α

namespace Worker

def ofPart (part : Nat × List Path) : Worker ε α := ⟨part.1, part.2, empty⟩

def isIdle (worker : Worker ε α) : Bool := worker.waiting.isEmpty

/-- The files that wait, each with its number. -/
def calls (worker : Worker ε α) : List (Path × Nat) := worker.waiting.zipIdx worker.next

/-- What became of the first file that waits. -/
def took (worker : Worker ε α) (path : Path) (rest : List Path) (result : Except ε α) :
    Worker ε α where
  next := worker.next + 1
  waiting := rest
  outcomes := worker.outcomes.append (single path result)

end Worker

/-- The outcomes of workers, put together in their order. -/
def joined : List (Worker ε α) → Outcomes ε α
  | [] => empty
  | worker :: rest => worker.outcomes.append (joined rest)

/-- One of the workers takes its next file. -/
inductive Step (work : Path → Nat → σ → Except ε α × σ) :
    List (Worker ε α) → σ → Path × Nat → List (Worker ε α) → σ → Prop
  | take (before after : List (Worker ε α)) {worker : Worker ε α} {path : Path}
      {rest : List Path} (waits : worker.waiting = path :: rest) (state : σ) :
      Step work (before ++ worker :: after) state (path, worker.next)
        (before ++ worker.took path rest (work path worker.next state).1 :: after)
        (work path worker.next state).2

/-- Workers take files one after another, in the order of the calls. -/
inductive Steps (work : Path → Nat → σ → Except ε α × σ) :
    List (Worker ε α) → σ → List (Path × Nat) → List (Worker ε α) → σ → Prop
  | done (workers : List (Worker ε α)) (state : σ) : Steps work workers state [] workers state
  | step {workers workers' workers'' : List (Worker ε α)} {state state' state'' : σ}
      {call : Path × Nat} {calls : List (Path × Nat)}
      (first : Step work workers state call workers' state')
      (others : Steps work workers' state' calls workers'' state'') :
      Steps work workers state (call :: calls) workers'' state''

/-- A chunk is shared among its workers until all are idle. -/
def Shares (threads : Nat) (work : Path → Nat → σ → Except ε α × σ) (first : Nat)
    (chunk : List Path) (state : σ) (calls : List (Path × Nat)) (outcomes : Outcomes ε α)
    (state' : σ) : Prop :=
  ∃ workers, Steps work ((parts threads first chunk).map .ofPart) state calls workers state' ∧
    workers.all Worker.isIdle = true ∧ outcomes = joined workers

/-- Chunks are shared one after another. With `failFast` the first with a failure is the last. -/
inductive SharesAll (failFast : Bool) (threads : Nat) (work : Path → Nat → σ → Except ε α × σ) :
    List (Nat × List Path) → σ → List (Path × Nat) → Outcomes ε α → σ → Prop
  | done (state : σ) : SharesAll failFast threads work [] state [] empty state
  | last {first : Nat} {chunk : List Path} {rest : List (Nat × List Path)} {state state' : σ}
      {calls : List (Path × Nat)} {outcomes : Outcomes ε α}
      (shares : Shares threads work first chunk state calls outcomes state')
      (failed : (failFast && outcomes.hasFailures) = true) :
      SharesAll failFast threads work ((first, chunk) :: rest) state calls outcomes state'
  | more {first : Nat} {chunk : List Path} {rest : List (Nat × List Path)}
      {state state' state'' : σ} {calls calls' : List (Path × Nat)}
      {outcomes others : Outcomes ε α}
      (shares : Shares threads work first chunk state calls outcomes state')
      (passed : (failFast && outcomes.hasFailures) = false)
      (goes : SharesAll failFast threads work rest state' calls' others state'') :
      SharesAll failFast threads work ((first, chunk) :: rest) state (calls ++ calls')
        (outcomes.append others) state''

/-- A run of a batch on several threads: the calls that it makes, and what it comes to. -/
def Schedules (failFast : Bool) (threads : Nat) (work : Path → Nat → σ → Except ε α × σ)
    (files : List Path) (state : σ) (calls : List (Path × Nat)) (outcomes : Outcomes ε α)
    (state' : σ) : Prop :=
  ∃ found, SharesAll failFast threads work (pieces (chunkSize files.length threads) 0 files) state
    calls found state' ∧ outcomes = found.sorted

section Chosen

variable {work : Path → Nat → σ → Except ε α × σ}

theorem Steps.trans {state : σ} {workers workers' workers'' : List (Worker ε α)} {state' state'' : σ}
    {calls calls' : List (Path × Nat)} (first : Steps work workers state calls workers' state')
    (second : Steps work workers' state' calls' workers'' state'') :
    Steps work workers state (calls ++ calls') workers'' state'' := by
  induction first with
  | done => exact second
  | step taken _ ih => exact .step taken (ih second)

/-- A worker may take all its files while the others wait. -/
theorem steps_of_inTurn (before after : List (Worker ε α)) (worker : Worker ε α) (state : σ) :
    ∃ idle : Worker ε α, idle.isIdle = true ∧
      idle.outcomes = worker.outcomes.append
        (inTurn false work worker.next state worker.waiting).1 ∧
      Steps work (before ++ worker :: after) state worker.calls (before ++ idle :: after)
        (inTurn false work worker.next state worker.waiting).2 := by
  obtain ⟨next, waiting, outcomes⟩ := worker
  induction waiting generalizing next outcomes state with
  | nil => exact ⟨⟨next, [], outcomes⟩, rfl, by simp [inTurn, append, empty], .done _ _⟩
  | cons path rest ih =>
    obtain ⟨idle, idles, made, steps⟩ := ih (work path next state).2 (next + 1)
      (outcomes.append (single path (work path next state).1))
    refine ⟨idle, idles, ?_, .step (.take before after rfl state) steps⟩
    rw [made, append_assoc]
    rfl

/-- The workers may take their parts one worker after another, as `shared` has it. -/
private theorem steps_of_fold (before : List (Worker ε α)) (taken : Outcomes ε α) (state : σ)
    (parts : List (Nat × List Path)) :
    ∃ workers : List (Worker ε α), workers.all Worker.isIdle = true ∧
      (parts.foldl (takePart work) (taken, state)).1 = taken.append (joined workers) ∧
      Steps work (before ++ parts.map .ofPart) state
        (parts.flatMap fun part => part.2.zipIdx part.1) (before ++ workers)
        (parts.foldl (takePart work) (taken, state)).2 := by
  induction parts generalizing before taken state with
  | nil => exact ⟨[], rfl, (append_empty taken).symm, .done _ _⟩
  | cons part rest ih =>
    obtain ⟨idle, idles, made, steps⟩ :=
      steps_of_inTurn before (rest.map .ofPart) (.ofPart part) state
    obtain ⟨workers, others, outcomes, steps'⟩ := ih (before ++ [idle])
      (taken.append (inTurn false work part.1 state part.2).1)
      (inTurn false work part.1 state part.2).2
    refine ⟨idle :: workers, ?_, ?_, ?_⟩
    · rw [List.all_cons, idles, others]
      rfl
    · rw [List.foldl_cons, takePart, outcomes, joined, made, append_assoc, Worker.ofPart, empty_append]
    · rw [List.append_assoc, List.append_assoc] at steps'
      exact steps.trans steps'

variable (work)

theorem shares_shared (threads first : Nat) (chunk : List Path) (state : σ) :
    Shares threads work first chunk state (chunk.zipIdx first)
      (shared threads work first state chunk).1 (shared threads work first state chunk).2 := by
  obtain ⟨workers, idle, outcomes, steps⟩ :=
    steps_of_fold [] empty state (parts threads first chunk)
  rw [zipIdx_parts] at steps
  exact ⟨workers, steps, idle, outcomes.trans (empty_append _)⟩

private theorem sharesAll_inChunks (failFast : Bool) (threads : Nat)
    (chunks : List (Nat × List Path)) (state : σ) :
    ∃ calls, SharesAll failFast threads work chunks state calls
      (inChunks failFast threads work state chunks).1
      (inChunks failFast threads work state chunks).2 := by
  induction chunks generalizing state with
  | nil => exact ⟨[], .done state⟩
  | cons chunk rest ih =>
    obtain ⟨first, chunk⟩ := chunk
    have shares := shares_shared work threads first chunk state
    rw [inChunks]
    cases stops : failFast && (shared threads work first state chunk).1.hasFailures with
    | true =>
      simp only [stops, if_true]
      exact ⟨_, .last shares stops⟩
    | false =>
      obtain ⟨calls, goes⟩ := ih (shared threads work first state chunk).2
      simp only [stops, Bool.false_eq_true, if_false]
      exact ⟨_, .more shares stops goes⟩

/-- What is computed is what one of the runs comes to. -/
theorem schedules_parallel (failFast : Bool) (threads : Nat) (files : List Path) (state : σ) :
    ∃ calls, Schedules failFast threads work files state calls
      (parallel failFast threads work state files).1
      (parallel failFast threads work state files).2 := by
  obtain ⟨calls, shares⟩ := sharesAll_inChunks work failFast threads
    (pieces (chunkSize files.length threads) 0 files) state
  exact ⟨calls, _, shares, rfl⟩

end Chosen

end NandTools.Outcomes
