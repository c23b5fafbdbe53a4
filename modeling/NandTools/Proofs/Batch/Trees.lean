import NandTools.Proofs.Batch.Modes

/-! The trees that stand on the disk when a batch ends. Files of one directory whose names differ in
their extensions only have one place for their trees. -/
namespace NandTools

/-- Files of one directory whose names differ in their extensions only. -/
def Disk.Twins (disk : Disk) (path path' : Path) : Prop :=
  ∃ parent name name', disk.resolve path = .ok (parent ++ [name]) ∧
    disk.resolve path' = .ok (parent ++ [name']) ∧
      (Path.splitName name).1 = (Path.splitName name').1

theorem Disk.twins_iff {disk : Disk} {path path' : Path} {parent parent' : Location}
    {name name' : String} (found : disk.resolve path = .ok (parent ++ [name]))
    (found' : disk.resolve path' = .ok (parent' ++ [name'])) : disk.Twins path path' ↔
      parent = parent' ∧ (Path.splitName name).1 = (Path.splitName name').1 := by
  constructor
  · rintro ⟨front, first, second, resolved, resolved', stems⟩
    obtain ⟨rfl, last⟩ := List.append_inj' (Except.ok.inj (found.symm.trans resolved)) rfl
    obtain ⟨rfl, last'⟩ := List.append_inj' (Except.ok.inj (found'.symm.trans resolved')) rfl
    rw [List.singleton_inj.mp last, List.singleton_inj.mp last']
    exact ⟨rfl, stems⟩
  · rintro ⟨rfl, stems⟩
    exact ⟨parent, name, name', found, found', stems⟩

namespace Batch

/-- What a class is made into, and the place that its tree is written to. -/
structure Yields (preferences : Preferences) (disk : Disk) (path : Path) (artifact : Artifact)
    (place : Location) : Prop where
  made : (Artifact.make .jack disk preferences path none).value = .ok artifact
  target : disk.target artifact.product.output = .ok place

section Yields

variable {preferences : Preferences} {disk : Disk} {path path' : Path}
  {artifact artifact' : Artifact} {place place' : Location}

theorem yields_of_outcome {product : Product}
    (succeeds : outcome preferences disk path = .ok product) :
    ∃ artifact place, Yields preferences disk path artifact place ∧ artifact.product = product := by
  have whole := processFile_eq preferences path 0 ⟨disk, .empty⟩
  rw [show (processFile preferences path 0 ⟨disk, .empty⟩).1 = .ok product from succeeds] at whole
  obtain ⟨artifact, place, made, rfl, found, _⟩ := Session.of_settled_ok whole.symm
  exact ⟨artifact, place, ⟨made, found⟩, rfl⟩

theorem Yields.outcome_eq (yields : Yields preferences disk path artifact place) :
    outcome preferences disk path = .ok artifact.product := by
  have alone := congrArg Prod.fst (processFile_eq preferences path 0 ⟨disk, .empty⟩)
  rw [outcome, alone, yields.made, Session.settled, Session.written, Disk.write, yields.target]
  rfl

theorem Yields.unique (yields : Yields preferences disk path artifact place)
    (yields' : Yields preferences disk path artifact' place') :
    artifact = artifact' ∧ place = place' := by
  obtain rfl := Except.ok.inj (yields.made.symm.trans yields'.made)
  exact ⟨rfl, Except.ok.inj (yields.target.symm.trans yields'.target)⟩

/-- The tree of a class goes to the directory of the class, under its name with another
extension. -/
theorem Yields.located (yields : Yields preferences disk path artifact place)
    (isClass : path.hasExtension "jack" = true) :
    ∃ parent name, disk.resolve path = .ok (parent ++ [name]) ∧
      place = parent ++ [s!"{(Path.splitName name).1}.{preferences.tree.format.extension}"] := by
  obtain ⟨name, _, named, _⟩ := name_of_class isClass
  obtain ⟨before, idle, ends⟩ := Path.endsIn_of_fileName? named
  obtain ⟨file, loads⟩ := (Artifact.standsFor_of_make yields.made).1.loads
  obtain ⟨source, resolved, _⟩ := Except.ok_of_bind loads.read
  obtain ⟨parent, walk, _, rfl⟩ := Disk.walk_of_resolve ends resolved
  have found := yields.target
  rw [Artifact.output_of_make yields.made] at found
  obtain ⟨parent', walk', rfl⟩ := Disk.of_target_withExtension named ends
    (slash_notMem_extension preferences.tree.format) found
  cases walk.symm.trans walk'
  exact ⟨parent, name, resolved, rfl⟩

/-- Two classes have one place for their trees just when they are twins. -/
theorem Yields.place_eq_iff (yields : Yields preferences disk path artifact place)
    (yields' : Yields preferences disk path' artifact' place')
    (isClass : path.hasExtension "jack" = true) (isClass' : path'.hasExtension "jack" = true) :
    place = place' ↔ disk.Twins path path' := by
  obtain ⟨parent, name, resolved, rfl⟩ := yields.located isClass
  obtain ⟨parent', name', resolved', rfl⟩ := yields'.located isClass'
  rw [Disk.twins_iff resolved resolved']
  constructor
  · intro same
    obtain ⟨parents, last⟩ := List.append_inj' same rfl
    have chars := congrArg String.toList (List.singleton_inj.mp last)
    exact ⟨parents, String.toList_inj.mp (by simpa [toString] using chars)⟩
  · rintro ⟨parents, stems⟩
    rw [parents, stems]

end Yields

section Runs

variable (preferences : Preferences) {disk : Disk}

/-- A class that is processed puts its tree in its place, if it has one. Which one that is does not
depend on the trees that were written before. -/
theorem disk_processFile {path : Path} (isClass : path.hasExtension "jack" = true) (id : Nat)
    {session : Session} (same : Disk.SameBut IsTreePlace disk session.disk) :
    (∃ artifact place, Yields preferences disk path artifact place ∧
        (processFile preferences path id session).2.disk =
          session.disk.put place (.file artifact.text.toUTF8)) ∨
      (∀ artifact place, ¬Yields preferences disk path artifact place) ∧
        (processFile preferences path id session).2.disk = session.disk := by
  have here := congrArg Prod.snd (processFile_eq preferences path id session)
  rw [← make_congr same isClass] at here
  cases made : (Artifact.make .jack disk preferences path none).value with
  | error error =>
    rw [made] at here
    refine .inr ⟨fun artifact place yields => ?_, here⟩
    cases made.symm.trans yields.made
  | ok artifact =>
    rw [made, Session.settled, Session.written, Disk.write,
      ← target_congr same isClass made] at here
    cases found : disk.target artifact.product.output with
    | error cause =>
      rw [found] at here
      refine .inr ⟨fun artifact' place yields => ?_, here⟩
      cases made.symm.trans yields.made
      cases found.symm.trans yields.target
    | ok place =>
      rw [found] at here
      exact .inl ⟨artifact, place, ⟨made, found⟩, here⟩

/-- After some classes, every place holds the tree of one of those that have it there, or else what
it held before. -/
theorem entry_after {calls : List (Path × Nat)}
    (classes : ∀ call ∈ calls, call.1.hasExtension "jack" = true) {session : Session}
    (same : Disk.SameBut IsTreePlace disk session.disk) (place : Location) :
    (∃ call ∈ calls, ∃ artifact, Yields preferences disk call.1 artifact place ∧
        (Outcomes.after (processFile preferences) session calls).disk.entry? place =
          some (.file artifact.text.toUTF8)) ∨
      (∀ call ∈ calls, ∀ artifact, ¬Yields preferences disk call.1 artifact place) ∧
        (Outcomes.after (processFile preferences) session calls).disk.entry? place =
          session.disk.entry? place := by
  induction calls generalizing session with
  | nil => exact .inr ⟨nofun, rfl⟩
  | cons call rest ih =>
    obtain ⟨path, id⟩ := call
    rw [List.forall_mem_cons] at classes
    have steady := steady_processFile preferences disk (List.forall_mem_singleton.mpr classes.1)
    have next := steady.keeps path List.mem_cons_self id session same
    rcases ih classes.2 next with ⟨call, among, artifact, yields, stands⟩ | ⟨others, kept⟩
    · exact .inl ⟨call, List.mem_cons_of_mem _ among, artifact, yields, stands⟩
    -- The classes after the first leave the place alone, so it holds what the first left there.
    rw [Outcomes.after, List.foldl_cons, ← Outcomes.after, kept]
    rcases disk_processFile preferences classes.1 id same with
      ⟨artifact, own, yields, put⟩ | ⟨none, left⟩
    · have below : own ≠ [] := by
        obtain ⟨parent, name, _, rfl⟩ := yields.located classes.1
        exact List.append_ne_nil_of_right_ne_nil parent (List.cons_ne_nil _ _)
      rw [put, Disk.entry_put session.disk below]
      by_cases here : place = own
      · subst here
        exact .inl ⟨(path, id), List.mem_cons_self, artifact, yields, if_pos rfl⟩
      · refine .inr ⟨List.forall_mem_cons.mpr ⟨fun other yields' => ?_, others⟩, if_neg here⟩
        exact here (yields'.unique yields).2
    · rw [left]
      refine .inr ⟨List.forall_mem_cons.mpr ⟨fun artifact => none artifact place, others⟩, rfl⟩

/-- An output holds the tree of a class. -/
def Holds (preferences : Preferences) (disk final : Disk) (path output : Path) : Prop :=
  ∃ text, Artifact.StandsFor disk preferences path .jack text ∧
    final.read output = .ok text.toUTF8

/-- What is left of the trees of the classes that succeeded. -/
structure TreesStand (preferences : Preferences) (disk final : Disk)
    (successes : List (Path × Product)) : Prop where
  /-- outputs are the same file just for twins -/
  apart : ∀ e ∈ successes, ∀ e' ∈ successes,
    disk.target e.2.output = disk.target e'.2.output ↔ disk.Twins e.1 e'.1
  /-- an output holds the tree of its class or of a twin -/
  stands : ∀ e ∈ successes, ∃ e' ∈ successes, disk.Twins e.1 e'.1 ∧
    Holds preferences disk final e'.1 e.2.output
  /-- a class without a twin keeps its tree -/
  own : ∀ e ∈ successes, (∀ e' ∈ successes, disk.Twins e.1 e'.1 → e'.1 = e.1) →
    Holds preferences disk final e.1 e.2.output

/-- A disk after calls that take each class once, in any order. -/
def Worked (preferences : Preferences) (disk : Disk) (files : List Path) (final : Disk) : Prop :=
  ∃ session calls, session.disk = disk ∧ calls.Perm files.zipIdx ∧
    final = (Outcomes.after (processFile preferences) session calls).disk

theorem Worked.treesStand {preferences : Preferences} {files : List Path} {final : Disk}
    (worked : Worked preferences disk files final)
    (classes : ∀ path ∈ files, path.hasExtension "jack" = true) :
    TreesStand preferences disk final
      (Outcomes.ofFiles (outcome preferences disk) files).successes := by
  obtain ⟨session, calls, rfl, perm, rfl⟩ := worked
  have paths : (calls.map Prod.fst).Perm files := by
    have numbered := perm.map Prod.fst
    rwa [List.zipIdx_map_fst] at numbered
  have inside : ∀ call ∈ calls, call.1 ∈ files := fun call among =>
    paths.mem_iff.mp (List.mem_map_of_mem among)
  have called : ∀ call ∈ calls, call.1.hasExtension "jack" = true := fun call among =>
    classes call.1 (inside call among)
  have ended := (steady_processFile preferences session.disk classes).after inside (.refl _ _)
  have stands : ∀ e ∈ (Outcomes.ofFiles (outcome preferences session.disk) files).successes,
      ∃ e' ∈ (Outcomes.ofFiles (outcome preferences session.disk) files).successes,
        session.disk.Twins e.1 e'.1 ∧ Holds preferences session.disk
          (Outcomes.after (processFile preferences) session calls).disk e'.1 e.2.output := by
    intro e member
    obtain ⟨among, succeeds⟩ := (Outcomes.mem_successes _).mp member
    obtain ⟨artifact, place, yields, product⟩ := yields_of_outcome succeeds
    rcases entry_after preferences called (.refl _ _) place with
      ⟨call, among', artifact', yields', stands⟩ | ⟨none, _⟩
    · have success := (Outcomes.mem_successes _).mpr ⟨inside call among', yields'.outcome_eq⟩
      refine ⟨_, success, ?_, artifact'.text, (Artifact.standsFor_of_make yields'.made).1, ?_⟩
      · exact (yields.place_eq_iff yields' (classes e.1 among) (called call among')).mp rfl
      · rw [← product]
        exact Disk.read_of_target (ended.target_eq yields.target) stands
    · obtain ⟨call, among', same⟩ := List.mem_map.mp (paths.mem_iff.mpr among)
      exact absurd (same ▸ yields) (none call among' artifact)
  refine ⟨?_, stands, ?_⟩
  · intro e member e' member'
    obtain ⟨among, succeeds⟩ := (Outcomes.mem_successes _).mp member
    obtain ⟨among', succeeds'⟩ := (Outcomes.mem_successes _).mp member'
    obtain ⟨artifact, place, yields, product⟩ := yields_of_outcome succeeds
    obtain ⟨artifact', place', yields', product'⟩ := yields_of_outcome succeeds'
    rw [← yields.place_eq_iff yields' (classes e.1 among) (classes e'.1 among'), ← product,
      ← product', yields.target, yields'.target, Except.ok.injEq]
  · intro e member single
    obtain ⟨e', member', twins, holds⟩ := stands e member
    rwa [single e' member' twins] at holds

end Runs

section Session

variable {options : BatchOptions} (goesOn : options.failFast = false) (preferences : Preferences)
  {directory : Path} {session : Session}

private theorem worked_withFiles {disk : Disk} (same : session.disk = disk) {threads : Nat}
    {processAll : List Path → Session → Outcomes PipelineError Product × Session}
    {files : List Path} (listed : found options directory disk = .ok files)
    (processed : ∀ session', session'.disk = disk →
      Worked preferences disk files (processAll files session').2.disk) :
    Worked preferences disk files
      (withFiles options threads directory processAll session).2.disk := by
  subst same
  unfold found Reported.value at listed
  unfold withFiles
  generalize (discover session.disk directory options.recursive options.maxFiles).result = out
    at listed ⊢
  obtain ⟨result, events⟩ := out
  cases listed
  have worked := processed (session.sendAll events) rfl
  dsimp only
  split <;> exact worked

include goesOn

theorem results_run : (run options preferences directory session).1 =
    (found options directory session.disk).map fun files =>
      ⟨files, Outcomes.ofFiles (outcome preferences session.disk) files⟩ := by
  have same : ∀ size, resultsAt options preferences session.disk size =
      fun files => ⟨files, Outcomes.ofFiles (outcome preferences session.disk) files⟩ := by
    intro size
    funext files
    rw [resultsAt, goesOn, Outcomes.reached_of_goes_on]
  unfold run
  split
  · rw [sequential_results, same]
  · simp only [parallel_results, same]

/-- A batch leaves the disk as calls do that take each class once. -/
theorem worked_run {files : List Path} (listed : found options directory session.disk = .ok files) :
    Worked preferences session.disk files (run options preferences directory session).2.disk := by
  obtain ⟨ordered, classes⟩ := of_discover listed
  have steady := steady_processFile preferences session.disk classes
  have shared (session' : Session) (same : session'.disk = session.disk) :
      Worked preferences session.disk files (Outcomes.parallel options.failFast
        (clampThreads options.threads) (processFile preferences) session' files).2.disk := by
    obtain ⟨calls, runs⟩ := Outcomes.schedules_parallel (processFile preferences) options.failFast
      (clampThreads options.threads) files session'
    obtain ⟨perm, _, leads⟩ := runs.outcomes_eq ordered steady (same ▸ .refl _ _)
    rw [goesOn, Outcomes.reached_of_goes_on] at perm
    exact ⟨session', calls, same, perm, congrArg Session.disk leads⟩
  unfold run
  split
  · apply worked_withFiles preferences (by rfl) listed
    intro session' same
    refine ⟨session', files.zipIdx, same, .refl _, ?_⟩
    rw [Outcomes.sequential_eq steady (same ▸ .refl _ _), goesOn, Outcomes.reached_of_goes_on]
  · apply worked_withFiles preferences (by rfl) listed
    intro session' same
    exact shared _ same

/-- At the end of a batch without `failFast`, on one thread or on several and however these take
turns, outputs are the same file just for classes that are twins, and a class without a twin has its
tree. -/
theorem run_trees {results : BatchResults}
    (made : (run options preferences directory session).1 = .ok results) :
    let Ends := fun final =>
      TreesStand preferences session.disk final results.outcomes.successes
    Ends (run options preferences directory session).2.disk ∧
      ∀ session' calls outcomes session'', session'.disk = session.disk →
        Outcomes.Schedules false (clampThreads options.threads) (processFile preferences)
          results.discovered session' calls outcomes session'' →
        outcomes = results.outcomes ∧ Ends session''.disk := by
  rw [results_run goesOn] at made
  obtain ⟨files, listed, rfl⟩ := Except.ok_of_map made
  obtain ⟨ordered, classes⟩ := of_discover listed
  refine ⟨(worked_run goesOn preferences listed).treesStand classes, ?_⟩
  intro session' calls outcomes session'' same runs
  have steady := steady_processFile preferences session.disk classes
  obtain ⟨perm, made, leads⟩ := runs.outcomes_eq ordered steady (same ▸ .refl _ _)
  rw [Outcomes.reached_of_goes_on] at perm made
  have worked : Worked preferences session.disk files session''.disk :=
    ⟨session', calls, same, perm, congrArg Session.disk leads⟩
  exact ⟨made, worked.treesStand classes⟩

end Session

section Sample

/-- Three classes, two of which are named alike but for the capitals of their extensions. -/
private def spelled : Disk where
  home := []
  entries :=
    [(["A.JACK"], .file "class A { }".toUTF8), (["A.jack"], .file "class B { }".toUTF8),
      (["B.jack"], .file "class C { }".toUTF8)]

private def spelledPaths : List Path := [⟨"/A.JACK"⟩, ⟨"/A.jack"⟩, ⟨"/B.jack"⟩]

private def inXml : Preferences where
  files := ⟨true, false⟩
  scan := ⟨false, false⟩
  tree := ⟨.xml, 2, false⟩
  translation := ⟨true, false⟩
  log := ⟨false, false, .info, false⟩

private theorem found_spelled : found ⟨1, false, 10, false⟩ ⟨"/"⟩ spelled = .ok spelledPaths := by
  have listed : classFiles spelled ⟨"/"⟩ false = .ok spelledPaths := by decide +kernel
  have room : ¬spelledPaths.length > min 10 Limits.batchFiles := by decide
  have ordered : Path.Ordered spelledPaths := by
    have pairs : (Path.compare ⟨"/A.JACK"⟩ ⟨"/A.jack"⟩).isLE = true ∧
        (Path.compare ⟨"/A.JACK"⟩ ⟨"/B.jack"⟩).isLE = true ∧
          (Path.compare ⟨"/A.jack"⟩ ⟨"/B.jack"⟩).isLE = true := by decide +kernel
    simp [Path.Ordered, spelledPaths, pairs]
  unfold found
  rw [value_discover, listed]
  simp only [spelledPaths] at room ⊢
  rw [if_neg room]
  exact congrArg Except.ok (Path.sorted_of_ordered ordered)

private theorem run_spelled : (run ⟨1, false, 10, false⟩ inXml ⟨"/"⟩ ⟨spelled, .empty⟩).1 =
    .ok ⟨spelledPaths, Outcomes.ofFiles (outcome inXml spelled) spelledPaths⟩ := by
  rw [results_run rfl, found_spelled]
  rfl

private theorem output_of_spelled {path : Path} {output : Path}
    (succeeds : (outcome inXml spelled path).toOption.map Product.output = some output) :
    ∃ product, outcome inXml spelled path = .ok product ∧ product.output = output := by
  obtain ⟨product, found, same⟩ := Option.map_eq_some_iff.mp succeeds
  exact ⟨product, Except.ok_of_toOption found, same⟩

end Sample

/-- The tree of a class without a twin is kept beside classes that are twins. -/
theorem run_trees_of_single :
    let ended := run ⟨1, false, 10, false⟩ inXml ⟨"/"⟩ ⟨spelled, .empty⟩
    ∃ results product, ended.1 = .ok results ∧
      (⟨"/B.jack"⟩, product) ∈ results.outcomes.successes ∧
        Holds inXml spelled ended.2.disk ⟨"/B.jack"⟩ product.output := by
  intro ended
  obtain ⟨product, succeeds, _⟩ := @output_of_spelled ⟨"/B.jack"⟩ ⟨"/B.xml"⟩ (by decide +kernel)
  have member : (⟨"/B.jack"⟩, product) ∈
      (Outcomes.ofFiles (outcome inXml spelled) spelledPaths).successes :=
    (Outcomes.mem_successes _).mpr ⟨by decide, succeeds⟩
  have here : spelled.resolve ⟨"/B.jack"⟩ = .ok ([] ++ ["B.jack"]) := by decide +kernel
  have first : spelled.resolve ⟨"/A.JACK"⟩ = .ok ([] ++ ["A.JACK"]) := by decide +kernel
  have second : spelled.resolve ⟨"/A.jack"⟩ = .ok ([] ++ ["A.jack"]) := by decide +kernel
  obtain ⟨⟨_, _, own⟩, _⟩ := run_trees rfl inXml run_spelled
  refine ⟨_, product, run_spelled, member, own _ member fun e among twins => ?_⟩
  have listed := ((Outcomes.mem_successes _).mp among).1
  simp only [spelledPaths, List.mem_cons, List.not_mem_nil, or_false] at listed
  rcases listed with same | same | same
  · rw [same, Disk.twins_iff here first] at twins
    exact absurd twins.2 (by decide +kernel)
  · rw [same, Disk.twins_iff here second] at twins
    exact absurd twins.2 (by decide +kernel)
  · exact same

/-- Two classes that succeed have one output, which cannot hold the trees of both. -/
theorem run_overwrites :
    let ended := run ⟨1, false, 10, false⟩ inXml ⟨"/"⟩ ⟨spelled, .empty⟩
    ∃ results first second, ended.1 = .ok results ∧
      (⟨"/A.JACK"⟩, first) ∈ results.outcomes.successes ∧
      (⟨"/A.jack"⟩, second) ∈ results.outcomes.successes ∧ first.output = second.output ∧
        ¬(Holds inXml spelled ended.2.disk ⟨"/A.JACK"⟩ first.output ∧
          Holds inXml spelled ended.2.disk ⟨"/A.jack"⟩ second.output) := by
  intro ended
  obtain ⟨first, succeeds, place⟩ :=
    @output_of_spelled ⟨"/A.JACK"⟩ ⟨"/A.xml"⟩ (by decide +kernel)
  obtain ⟨second, succeeds', place'⟩ :=
    @output_of_spelled ⟨"/A.jack"⟩ ⟨"/A.xml"⟩ (by decide +kernel)
  refine ⟨_, first, second, run_spelled, (Outcomes.mem_successes _).mpr ⟨by decide, succeeds⟩,
    (Outcomes.mem_successes _).mpr ⟨by decide, succeeds'⟩, place.trans place'.symm, ?_⟩
  rintro ⟨⟨text, stands, read⟩, ⟨text', stands', read'⟩⟩
  rw [place] at read
  rw [place'] at read'
  obtain rfl := String.toByteArray_inj.mp (Except.ok.inj (read.symm.trans read'))
  have trees := (stands.make_eq none).trans (stands'.make_eq none).symm
  exact absurd trees (by decide +kernel)

end Batch

end NandTools
