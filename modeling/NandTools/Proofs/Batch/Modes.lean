import NandTools.Proofs.Batch.Independence

/-! A batch on one thread and a batch on several, over the classes that are found in a directory. -/
namespace NandTools.Batch

open Reported Outcomes

section Found

variable (disk : Disk) (directory : Path) (deep : Bool) (maxFiles : Nat)

theorem value_discover : (discover disk directory deep maxFiles).value =
    match classFiles disk directory deep with
    | .error _ => .error (.directoryNotFound directory.text)
    | .ok [] => .error (.noFilesFound directory.text)
    | .ok files =>
      let limit := min maxFiles Limits.batchFiles
      if files.length > limit then .error (.tooManyFiles files.length limit)
      else .ok (Path.sorted files) := by
  unfold discover
  cases classFiles disk directory deep with
  | error e => rfl
  | ok files =>
    cases files with
    | nil => rfl
    | cons path rest =>
      dsimp only
      split <;> rfl

variable {disk directory deep maxFiles}

/-- What is found is named like a class, and stands in path order. -/
theorem of_discover {files : List Path}
    (found : (discover disk directory deep maxFiles).value = .ok files) :
    Path.Ordered files ∧ ∀ path ∈ files, path.hasExtension "jack" = true := by
  rw [value_discover] at found
  split at found
  · cases found
  · cases found
  · next files' _ listed =>
    dsimp only at found
    split at found
    · cases found
    · cases found
      refine ⟨Path.ordered_sorted files', fun path among => ?_⟩
      obtain ⟨all, _, rfl⟩ := Except.ok_of_map listed
      have member := (List.mergeSort_perm _ _).mem_iff.mp among
      exact (List.mem_filter.mp member).2

end Found

/-- The classes that a batch is to process. -/
def found (options : BatchOptions) (directory : Path) (disk : Disk) : Except BatchError (List Path) :=
  (discover disk directory options.recursive options.maxFiles).value

/-- The results of a batch that looks for failures after every `size` files. -/
def resultsAt (options : BatchOptions) (preferences : Preferences) (disk : Disk) (size : Nat)
    (files : List Path) : BatchResults :=
  ⟨files, ofFiles (outcome preferences disk)
    (reached options.failFast size (outcome preferences disk) files)⟩

section Modes

variable (options : BatchOptions) (preferences : Preferences) (directory : Path)
  (session : Session)

private theorem withFiles_eq (threads : Nat)
    (processAll : List Path → Session → Outcomes PipelineError Product × Session)
    {result : List Path → BatchResults}
    (processed : ∀ files, Path.Ordered files → (∀ path ∈ files, path.hasExtension "jack" = true) →
      ∀ session' : Session, session'.disk = session.disk →
        ⟨files, (processAll files session').1⟩ = result files) :
    (withFiles options threads directory processAll session).1 =
      (found options directory session.disk).map result := by
  have classes := @of_discover session.disk directory options.recursive options.maxFiles
  unfold withFiles found
  unfold Reported.value at classes ⊢
  cases same : (discover session.disk directory options.recursive options.maxFiles).result with
  | mk out events =>
    rw [same] at classes
    cases out with
    | error e => rfl
    | ok files =>
      obtain ⟨ordered, areClasses⟩ := classes rfl
      exact congrArg Except.ok
        (processed files ordered areClasses (session.sendAll events) rfl)

private theorem steady_at (disk : Disk) {files : List Path}
    (classes : ∀ path ∈ files, path.hasExtension "jack" = true) {session' : Session}
    (same : session'.disk = disk) :
    Steady (processFile preferences) (outcome preferences disk)
      (fun session => Disk.SameBut IsTreePlace disk session.disk) files ∧
      Disk.SameBut IsTreePlace disk session'.disk :=
  ⟨steady_processFile preferences disk classes, same ▸ Disk.SameBut.refl _ _⟩

theorem sequential_results : (sequential options preferences directory session).1 =
    (found options directory session.disk).map (resultsAt options preferences session.disk 1) := by
  apply withFiles_eq
  intro files ordered classes session' same
  obtain ⟨steady, valid⟩ := steady_at preferences session.disk classes same
  rw [Outcomes.sequential_eq steady valid]
  rfl

theorem parallel_results : (parallel options preferences directory session).1 =
    (found options directory session.disk).map fun files =>
      resultsAt options preferences session.disk
        (chunkSize files.length (clampThreads options.threads)) files := by
  apply withFiles_eq
  intro files ordered classes session' same
  obtain ⟨steady, valid⟩ := steady_at preferences session.disk classes same
  exact congrArg (BatchResults.mk files) (Outcomes.parallel_eq ordered steady valid)

end Modes

section Sample

end Sample

end NandTools.Batch
