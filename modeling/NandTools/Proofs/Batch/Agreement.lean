import NandTools.Proofs.Batch.Schedule

/-! Work whose result depends on the file alone comes to the same on every schedule: each file that
the batch reaches is processed once, under the number of its place. -/
namespace NandTools.Outcomes

variable {ε α σ : Type}

/-- The state that calls lead to. -/
def after (work : Path → Nat → σ → Except ε α × σ) (state : σ) (calls : List (Path × Nat)) : σ :=
  calls.foldl (fun state call => (work call.1 call.2 state).2) state

/-- The work on each of some files comes to its `outcome`, in every valid state and under every
number, and leaves a valid state to the others. -/
structure Steady (work : Path → Nat → σ → Except ε α × σ) (outcome : Path → Except ε α)
    (Valid : σ → Prop) (files : List Path) : Prop where
  result : ∀ path ∈ files, ∀ id state, Valid state → (work path id state).1 = outcome path
  keeps : ∀ path ∈ files, ∀ id state, Valid state → Valid (work path id state).2

theorem Steady.sub {work : Path → Nat → σ → Except ε α × σ} {outcome : Path → Except ε α}
    {Valid : σ → Prop} {files some : List Path} (steady : Steady work outcome Valid files)
    (sub : some ⊆ files) : Steady work outcome Valid some where
  result path among := steady.result path (sub among)
  keeps path among := steady.keeps path (sub among)

theorem Steady.after {work : Path → Nat → σ → Except ε α × σ} {outcome : Path → Except ε α}
    {Valid : σ → Prop} {files : List Path} (steady : Steady work outcome Valid files)
    {calls : List (Path × Nat)} (inside : ∀ call ∈ calls, call.1 ∈ files) {state : σ}
    (valid : Valid state) : Valid (after work state calls) := by
  induction calls generalizing state with
  | nil => exact valid
  | cons call rest ih =>
    rw [List.forall_mem_cons] at inside
    exact ih inside.2 (steady.keeps call.1 inside.1 call.2 state valid)

/-- A worker when it will have taken all its files. -/
def Worker.settled (outcome : Path → Except ε α) (worker : Worker ε α) : Worker ε α where
  next := worker.next + worker.waiting.length
  waiting := []
  outcomes := worker.outcomes.append (ofFiles outcome worker.waiting)

/-- The calls that workers have before them. -/
def pending (workers : List (Worker ε α)) : List (Path × Nat) := workers.flatMap Worker.calls

section Pending

variable (before after : List (Worker ε α)) (outcome : Path → Except ε α)

theorem joined_append : joined (before ++ after) = (joined before).append (joined after) := by
  induction before with
  | nil => exact (empty_append _).symm
  | cons worker rest ih => rw [List.cons_append, joined, joined, ih, append_assoc]

/-- Idle workers have no call before them and are settled. -/
theorem pending_of_idle {workers : List (Worker ε α)}
    (idle : workers.all Worker.isIdle = true) :
    pending workers = [] ∧ joined (workers.map (.settled outcome)) = joined workers := by
  induction workers with
  | nil => exact ⟨rfl, rfl⟩
  | cons worker rest ih =>
    obtain ⟨idles, others⟩ := Bool.and_eq_true_iff.mp (List.all_cons.symm.trans idle)
    have nothing : worker.waiting = [] := List.isEmpty_iff.mp idles
    obtain ⟨calls, outcomes⟩ := ih others
    constructor
    · rw [pending, List.flatMap_cons, Worker.calls, nothing]
      exact calls
    · rw [List.map_cons, joined, joined, outcomes, Worker.settled, nothing, ofFiles, append_empty]

/-- The workers that share a chunk will have its outcomes when they settle. -/
theorem joined_settled_parts (parts : List (Nat × List Path)) :
    joined ((parts.map Worker.ofPart).map (.settled outcome)) =
      ofFiles outcome (parts.flatMap (·.2)) := by
  induction parts with
  | nil => rfl
  | cons part rest ih =>
    rw [List.map_cons, List.map_cons, joined, ih, List.flatMap_cons, ofFiles_append,
      Worker.settled, Worker.ofPart, empty_append]

end Pending

section Runs

variable {work : Path → Nat → σ → Except ε α × σ} {outcome : Path → Except ε α}
  {Valid : σ → Prop} {files : List Path}

/-- A step makes one of the calls that were pending, and what the workers will come to stays. -/
theorem Step.settles {workers workers' : List (Worker ε α)} {state state' : σ} {call : Path × Nat}
    (step : Step work workers state call workers' state')
    (steady : Steady work outcome Valid ((pending workers).map (·.1))) (valid : Valid state) :
    (call :: pending workers').Perm (pending workers) ∧
      joined (workers'.map (.settled outcome)) = joined (workers.map (.settled outcome)) ∧
      Valid state' ∧ state' = (work call.1 call.2 state).2 := by
  cases step with
  | @take before after worker path rest waits =>
    have calls : worker.calls = (path, worker.next) ::
        (worker.took path rest (work path worker.next state).1).calls := by
      rw [Worker.calls, waits, List.zipIdx_cons]
      rfl
    have perm : ((path, worker.next) :: pending (before ++
        worker.took path rest (work path worker.next state).1 :: after)).Perm
        (pending (before ++ worker :: after)) := by
      simp only [pending, List.flatMap_append, List.flatMap_cons, calls, List.cons_append]
      exact List.perm_middle.symm
    have among : path ∈ (pending (before ++ worker :: after)).map (·.1) :=
      List.mem_map_of_mem (perm.mem_iff.mp List.mem_cons_self)
    refine ⟨perm, ?_, steady.keeps path among _ _ valid, rfl⟩
    have settled : ((worker.took path rest (work path worker.next state).1).settled outcome).outcomes
        = (worker.settled outcome).outcomes := by
      rw [Worker.settled, Worker.settled, waits, Worker.took, steady.result path among _ _ valid,
        append_assoc, ofFiles]
    simp only [List.map_append, List.map_cons, joined_append, joined, settled]

/-- A run makes pending calls, and what the workers will come to stays. -/
theorem Steps.settle {workers workers' : List (Worker ε α)} {state state' : σ}
    {calls : List (Path × Nat)} (steps : Steps work workers state calls workers' state')
    (steady : Steady work outcome Valid ((pending workers).map (·.1))) (valid : Valid state) :
    (calls ++ pending workers').Perm (pending workers) ∧
      joined (workers'.map (.settled outcome)) = joined (workers.map (.settled outcome)) ∧
      Valid state' ∧ state' = Outcomes.after work state calls := by
  induction steps with
  | done workers state => exact ⟨.refl _, rfl, valid, rfl⟩
  | step first _ ih =>
    obtain ⟨perm, settled, valid, leads⟩ := first.settles steady valid
    -- No step adds to what is pending, so the work stays steady on it.
    have fewer := List.map_subset (·.1) fun _ among => perm.subset (List.mem_cons_of_mem _ among)
    obtain ⟨others, settles, valid', leads'⟩ := ih (steady.sub fewer) valid
    refine ⟨(others.cons _).trans perm, settles.trans settled, valid', ?_⟩
    rw [leads', leads]
    rfl

/-- However its workers take turns, a chunk has the outcomes of its files. -/
theorem Shares.outcomes_eq {threads first : Nat} {chunk : List Path} {state state' : σ}
    {calls : List (Path × Nat)} {outcomes : Outcomes ε α}
    (shares : Shares threads work first chunk state calls outcomes state')
    (steady : Steady work outcome Valid chunk) (valid : Valid state) :
    calls.Perm (chunk.zipIdx first) ∧ outcomes = ofFiles outcome chunk ∧
      Valid state' ∧ state' = after work state calls := by
  obtain ⟨workers, steps, idle, rfl⟩ := shares
  have all : pending ((parts threads first chunk).map (Worker.ofPart (ε := ε) (α := α))) =
      chunk.zipIdx first := by
    rw [← zipIdx_parts threads first chunk, pending, List.flatMap_map]
    rfl
  have whole : (parts threads first chunk).flatMap (·.2) = chunk := by
    have numbered := congrArg (List.map Prod.fst) (zipIdx_parts threads first chunk)
    rw [List.map_flatMap, List.zipIdx_map_fst] at numbered
    simpa using numbered
  rw [← List.zipIdx_map_fst first chunk, ← all] at steady
  obtain ⟨perm, settled, valid', leads⟩ := steps.settle steady valid
  obtain ⟨none, done⟩ := pending_of_idle outcome idle
  rw [none, List.append_nil, all] at perm
  rw [done, joined_settled_parts, whole] at settled
  exact ⟨perm, settled, valid', leads⟩

/-- Chunks come to the outcomes of the files that the batch reaches. -/
theorem SharesAll.outcomes_eq {failFast : Bool} {threads size : Nat} (positive : 0 < size)
    {first : Nat} {state state' : σ} {calls : List (Path × Nat)} {outcomes : Outcomes ε α}
    (goes : SharesAll failFast threads work (pieces size first files) state calls outcomes state')
    (steady : Steady work outcome Valid files) (valid : Valid state) :
    calls.Perm ((reached failFast size outcome files).zipIdx first) ∧
      outcomes = ofFiles outcome (reached failFast size outcome files) ∧
      state' = after work state calls := by
  induction first, files using pieces_induction positive generalizing state calls outcomes with
  | done first =>
    rw [pieces_nil] at goes
    cases goes
    rw [reached, List.take_nil]
    exact ⟨.refl _, rfl, rfl⟩
  | next first files nonempty ih =>
    rw [pieces_of_ne_nil positive nonempty] at goes
    rw [reached_eq failFast outcome files positive]
    cases goes with
    | last shares failed =>
      obtain ⟨perm, made, _, leads⟩ :=
        shares.outcomes_eq (steady.sub (List.take_subset _ _)) valid
      rw [made, hasFailures_ofFiles] at failed
      rw [if_pos failed]
      exact ⟨perm, made, leads⟩
    | more shares passed others =>
      obtain ⟨perm, made, valid', leads⟩ :=
        shares.outcomes_eq (steady.sub (List.take_subset _ _)) valid
      obtain ⟨perm', made', leads'⟩ := ih others (steady.sub (List.drop_subset _ _)) valid'
      rw [made, hasFailures_ofFiles] at passed
      rw [if_neg (by rw [passed]; exact Bool.false_ne_true), ofFiles_append, made, made', leads',
        leads]
      refine ⟨?_, rfl, List.foldl_append.symm⟩
      rw [reached, zipIdx_take_append]
      exact perm.append perm'

/-- One file after another comes to the outcomes of the files up to the first failure. -/
theorem inTurn_eq (failFast : Bool) (first : Nat) (state : σ)
    (steady : Steady work outcome Valid files) (valid : Valid state) :
    inTurn failFast work first state files =
      (ofFiles outcome (reached failFast 1 outcome files),
        after work state ((reached failFast 1 outcome files).zipIdx first)) := by
  induction files generalizing first state with
  | nil => rw [reached, List.take_nil]; rfl
  | cons path rest ih =>
    have result := steady.result path List.mem_cons_self first state valid
    have others := ih (first + 1) (work path first state).2
      (steady.sub (List.subset_cons_self _ _))
      (steady.keeps path List.mem_cons_self first state valid)
    simp only [inTurn, result, hasFailures_single, others]
    rw [reached_eq failFast outcome (path :: rest) Nat.one_pos, List.take_one, List.drop_one]
    simp only [List.head?_cons, List.tail_cons, Option.toList_some, List.any_cons, List.any_nil,
      Bool.or_false]
    split
    · simp [ofFiles, append_empty, after]
    · rfl

/-- Whichever worker goes on at each step, a batch comes to the outcomes of the files that it
reaches, each of which is called once under the number of its place. -/
theorem Schedules.outcomes_eq {failFast : Bool} {threads : Nat} {state state' : σ}
    {calls : List (Path × Nat)} {outcomes : Outcomes ε α} (ordered : Path.Ordered files)
    (runs : Schedules failFast threads work files state calls outcomes state')
    (steady : Steady work outcome Valid files) (valid : Valid state) :
    calls.Perm (reached failFast (chunkSize files.length threads) outcome files).zipIdx ∧
      outcomes = ofFiles outcome (reached failFast (chunkSize files.length threads) outcome files) ∧
      state' = after work state calls := by
  obtain ⟨found, goes, rfl⟩ := runs
  obtain ⟨perm, rfl, leads⟩ := goes.outcomes_eq (chunkSize_pos _ threads) steady valid
  have part := List.Pairwise.sublist (List.take_sublist
    (reach failFast (chunkSize files.length threads) outcome files) files) ordered
  exact ⟨perm, sorted_ofFiles outcome part, leads⟩

theorem parallel_eq {failFast : Bool} {threads : Nat} {state : σ} (ordered : Path.Ordered files)
    (steady : Steady work outcome Valid files) (valid : Valid state) :
    (parallel failFast threads work state files).1 =
      ofFiles outcome (reached failFast (chunkSize files.length threads) outcome files) := by
  obtain ⟨calls, runs⟩ := schedules_parallel work failFast threads files state
  exact (runs.outcomes_eq ordered steady valid).2.1

theorem sequential_eq {failFast : Bool} {state : σ} (steady : Steady work outcome Valid files)
    (valid : Valid state) : sequential failFast work state files =
      (ofFiles outcome (reached failFast 1 outcome files),
        after work state (reached failFast 1 outcome files).zipIdx) :=
  inTurn_eq failFast 0 state steady valid

end Runs

end NandTools.Outcomes
