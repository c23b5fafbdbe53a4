import NandTools.Batch
import NandTools.Proofs.Batch.Agreement
import NandTools.Proofs.Pipeline.Effect

/-! The classes of a batch are independent: trees that were written for some of them change nothing
for the others, since a tree is never read as a class. -/
namespace NandTools.Batch

/-- What becomes of a class that is processed by itself. -/
def outcome (preferences : Preferences) (disk : Disk) (path : Path) :
    Except PipelineError Product :=
  (processFile preferences path 0 ⟨disk, .empty⟩).1

/-- Files that have the extension of a tree. -/
def IsTreePlace (place : Location) : Prop :=
  ∃ parent name, place = parent ++ [name] ∧
    ∃ format : TreeFormat, (Path.splitName name).2 = some format.extension

theorem processFile_eq (preferences : Preferences) (path : Path) (id : Nat) (session : Session) :
    ((processFile preferences path id session).1,
      (processFile preferences path id session).2.disk) =
      Session.settled session.disk
        (Artifact.make .jack session.disk preferences path none).value := by
  have whole := Session.processAs_eq .jack preferences path none (session.enter path id)
  unfold processFile Session.under
  dsimp only
  generalize Session.processAs .jack preferences path none (session.enter path id) = ended at whole ⊢
  obtain ⟨result, session'⟩ := ended
  rw [← show (session.enter path id).disk = session.disk from rfl, ← whole]
  cases result <;> rfl

/-- A class is named with its extension, in small letters or capitals. -/
theorem name_of_class {path : Path} (isClass : path.hasExtension "jack" = true) :
    ∃ name extension, path.fileName? = some name ∧
      (Path.splitName name).2 = some extension ∧ extension.toLower = "jack" := by
  unfold Path.hasExtension at isClass
  obtain ⟨extension, extended, lower⟩ := Option.map_eq_some_iff.mp (beq_iff_eq.mp isClass)
  obtain ⟨name, named, split⟩ := Option.bind_eq_some_iff.mp extended
  exact ⟨name, extension, named, split, lower⟩

/-- The name of a class is never that of a tree. -/
private theorem not_isTreePlace {name extension : String}
    (extended : (Path.splitName name).2 = some extension) (isClass : extension.toLower = "jack")
    (parent : Location) : ¬IsTreePlace (parent ++ [name]) := by
  rintro ⟨parent', name', same, format, isTree⟩
  obtain ⟨_, last⟩ := List.append_inj' same rfl
  cases last
  cases extended.symm.trans isTree
  cases format <;> exact absurd isClass (by decide +kernel)

theorem slash_notMem_extension (format : TreeFormat) : '/' ∉ format.extension.toList := by
  cases format <;> decide

/-- The tree of a class is named after it. -/
private theorem isTreePlace_of_target {disk : Disk} {path : Path} {name : String}
    (named : path.fileName? = some name) (format : TreeFormat) {place : Location}
    (found : disk.target (path.withExtension format.extension) = .ok place) :
    IsTreePlace place := by
  obtain ⟨before, idle, ends⟩ := Path.endsIn_of_fileName? named
  have plain : '.' ∉ format.extension.toList := by cases format <;> decide
  obtain ⟨parent, _, rfl⟩ :=
    Disk.of_target_withExtension named ends (slash_notMem_extension format) found
  have nonempty : name ≠ "" := by
    rintro rfl
    exact absurd ends.busy (by decide)
  refine ⟨parent, _, rfl, format, ?_⟩
  rw [Path.splitName_dot ((Path.splitName_stem name).2 nonempty) plain]

section Class

variable {a b : Disk} {preferences : Preferences} {path : Path}

/-- A class is made into the same artifact on two disks that only differ in trees. -/
theorem make_congr (same : Disk.SameBut IsTreePlace a b)
    (isClass : path.hasExtension "jack" = true) :
    (Artifact.make .jack a preferences path none).value =
      (Artifact.make .jack b preferences path none).value := by
  obtain ⟨name, extension, named, extended, lower⟩ := name_of_class isClass
  obtain ⟨before, idle, ends⟩ := Path.endsIn_of_fileName? named
  rw [Artifact.make, Artifact.make, Artifact.value_ofClass, Artifact.value_ofClass,
    Artifact.value_loadSource, Artifact.value_loadSource,
    SourceFile.load_congr same ends (not_isTreePlace extended lower)]

/-- There its tree has the same place. -/
theorem target_congr (same : Disk.SameBut IsTreePlace a b) {artifact : Artifact}
    (isClass : path.hasExtension "jack" = true)
    (made : (Artifact.make .jack a preferences path none).value = .ok artifact) :
    a.target artifact.product.output = b.target artifact.product.output := by
  obtain ⟨name, extension, named, extended, lower⟩ := name_of_class isClass
  obtain ⟨before, idle, ends⟩ := Path.endsIn_of_fileName? named
  have whole := slash_notMem_extension preferences.tree.format
  -- The class was read, so the pieces before its name lead to a directory, where its tree goes too.
  obtain ⟨file, loads⟩ := (Artifact.standsFor_of_make made).1.loads
  obtain ⟨place, resolved, _⟩ := Except.ok_of_bind loads.read
  obtain ⟨parent, walk, there, _⟩ := Disk.walk_of_resolve ends resolved
  have start : a.start (path.withExtension preferences.tree.format.extension) = a.start path := by
    rw [Disk.start, Disk.start, Path.isAbsolute_withExtension named whole]
  rw [← start] at walk
  rw [Artifact.output_of_make made]
  exact same.target (Path.pieces_withExtension named ends whole) (by simp [toString]) walk there

/-- A class has the same outcome on two disks that only differ in trees, and at most its own tree is
written. -/
theorem settled_congr (same : Disk.SameBut IsTreePlace a b)
    (isClass : path.hasExtension "jack" = true) :
    (Session.settled a (Artifact.make .jack a preferences path none).value).1 =
        (Session.settled b (Artifact.make .jack b preferences path none).value).1 ∧
      Disk.SameBut IsTreePlace b
        (Session.settled b (Artifact.make .jack b preferences path none).value).2 := by
  have alike : (Artifact.make .jack a preferences path none).value = _ := make_congr same isClass
  cases made : (Artifact.make .jack a preferences path none).value with
  | error error =>
    rw [← alike, made]
    exact ⟨rfl, .refl _ _⟩
  | ok artifact =>
    have targets := target_congr same isClass made
    have output := Artifact.output_of_make made
    obtain ⟨name, _, named, _⟩ := name_of_class isClass
    rw [← alike, made]
    simp only [Session.settled, Session.written, Disk.write, targets]
    cases found : b.target artifact.product.output with
    | error cause => exact ⟨rfl, .refl _ _⟩
    | ok place =>
      obtain ⟨_, _, _, _, _, _, _, _, _, _, free, _⟩ := Disk.of_target found
      rw [output] at found
      exact ⟨rfl, Disk.sameBut_put free (isTreePlace_of_target named _ found) _⟩

end Class

/-- The outcome of a class depends on the class alone, whichever others were processed before. -/
theorem steady_processFile (preferences : Preferences) (disk : Disk) {files : List Path}
    (classes : ∀ path ∈ files, path.hasExtension "jack" = true) :
    Outcomes.Steady (processFile preferences) (outcome preferences disk)
      (fun session => Disk.SameBut IsTreePlace disk session.disk) files where
  result path among id session same := by
    have alone := congrArg Prod.fst (processFile_eq preferences path 0 ⟨disk, .empty⟩)
    have here := congrArg Prod.fst (processFile_eq preferences path id session)
    exact here.trans ((settled_congr same (classes path among)).1.symm.trans alone.symm)
  keeps path among id session same := by
    have here := congrArg Prod.snd (processFile_eq preferences path id session)
    dsimp only at here ⊢
    rw [here]
    exact same.trans (settled_congr same (classes path among)).2

end NandTools.Batch
