import NandTools.Preferences.Environment
import NandTools.Proofs.Path.Join
import NandTools.Proofs.Pipeline.Effect

/-! Where the translation of a directory is written. The file is named after the directory, but what
follows the last dot of the directory's name is taken for an extension and replaced. -/
namespace NandTools

namespace Disk

section Join

variable {disk : Disk} {directory : Path} {place : Location} {name : String}

/-- A path to a directory is walked up to an empty piece after it. -/
theorem walk_of_directory (leads : disk.resolve directory = .ok place)
    {before : List (List Char)}
    (own : directory.pieces = before ∨ directory.pieces = before ++ [[]]) :
    before.foldlM disk.step (disk.start directory) = .ok place := by
  obtain ⟨_, _, walk⟩ := Except.ok_of_bind leads
  rcases own with same | same
  · rwa [same] at walk
  · rw [same, List.foldlM_append] at walk
    obtain ⟨place', walk, idle⟩ := Except.ok_of_bind walk
    rw [(walk_idle (by simp [Path.isIdle]) idle).1]
    exact walk

/-- Nothing stops a file of this name from being written in a directory, under this path. -/
structure Accepts (disk : Disk) (path : Path) (parent : Location) (name : String) : Prop where
  named : name.utf8ByteSize ≤ 255
  short : path.text.utf8ByteSize < 4096
  free : disk.entry? (parent ++ [name]) ≠ some .directory

/-- A path that leads somewhere is not empty and has no zero character. -/
theorem nonempty_of_resolve (leads : disk.resolve directory = .ok place) :
    directory.text ≠ "" ∧ '\x00' ∉ directory.text.toList := by
  obtain ⟨_, checked, _⟩ := Except.ok_of_bind leads
  unfold checkPath at checked
  split at checked
  · cases checked
  · next noZero =>
    split at checked
    · cases checked
    · next nonempty => exact ⟨by simpa using nonempty, by simpa using noZero⟩

theorem checkPath_join (leads : disk.resolve directory = .ok place)
    (valid : Path.IsFileName name) :
    checkPath (directory.join ⟨name⟩) =
      if (directory.join ⟨name⟩).text.utf8ByteSize ≥ 4096 then .error .nameTooLong else .ok () := by
  obtain ⟨nonempty, noZero⟩ := nonempty_of_resolve leads
  obtain ⟨front, own, joined⟩ := Path.toList_join nonempty
  have text := joined name valid.whole
  have clean : (directory.join ⟨name⟩).text.toList.contains '\x00' = false := by
    have inFront : '\x00' ∉ front := by
      rcases own with same | same
      · rwa [← same]
      · exact fun among => noZero (same ▸ List.mem_append_left _ among)
    rw [text]
    simpa using ⟨inFront, valid.noZero⟩
  have long : (directory.join ⟨name⟩).text.isEmpty = false := by
    simpa using fun empty => List.cons_ne_nil _ _ ((List.append_eq_nil_iff.mp
      (text.symm.trans (congrArg String.toList empty))).2)
  unfold checkPath
  rw [clean, long]
  rfl

/-- A name in a directory is the place of a new file there, if the disk accepts one. -/
theorem target_join (leads : disk.resolve directory = .ok place)
    (there : disk.entry? place = some .directory) (valid : Path.IsFileName name)
    {target : Location} : disk.target (directory.join ⟨name⟩) = .ok target ↔
      disk.Accepts (directory.join ⟨name⟩) place name ∧ target = place ++ [name] := by
  obtain ⟨nonempty, _⟩ := nonempty_of_resolve leads
  obtain ⟨before, own, joined⟩ := Path.pieces_join nonempty
  have cut := joined name valid.whole
  have walk : before.foldlM disk.step (disk.start (directory.join ⟨name⟩)) = .ok place := by
    rw [start, Path.isAbsolute_join nonempty valid.whole]
    exact walk_of_directory leads own
  constructor
  · intro found
    obtain ⟨front, last, parent, cut', walk', _, _, _, short, named, free, checked⟩ :=
      of_target found
    obtain ⟨rfl, same⟩ := List.append_inj' (cut.symm.trans cut') rfl
    cases walk.symm.trans walk'
    rw [← List.singleton_inj.mp same, String.ofList_toList] at short named
    refine ⟨⟨short, ?_, named ▸ free⟩, named⟩
    rw [checkPath_join leads valid] at checked
    by_contra long
    rw [if_pos (Nat.le_of_not_lt long)] at checked
    cases checked
  · rintro ⟨fits, rfl⟩
    have checked : checkPath (directory.join ⟨name⟩) = .ok () := by
      rw [checkPath_join leads valid, if_neg (Nat.not_le.mpr fits.short)]
    have some : name.toList ≠ [] := by simpa using valid.nonempty
    rw [target_of_walk checked cut some walk there]
    have plain : (decide ((directory.join ⟨name⟩).text.toList.getLast? = Option.some '/') ||
        decide (name.toList = ['.']) || decide (name.toList = ['.', '.'])) = false := by
      have busy : name.toList ≠ ['.'] := fun here => by simpa [here, Path.isIdle] using valid.busy
      simp [Path.open_join nonempty valid, busy, valid.forth]
    unfold placeIn
    rw [plain, String.ofList_toList, if_neg Bool.false_ne_true, if_neg (Nat.not_lt.mpr fits.named)]
    split
    · next full => exact absurd full fits.free
    · rfl

variable {bytes : ByteArray}

theorem write_of_accepts (leads : disk.resolve directory = .ok place)
    (there : disk.entry? place = some .directory) (valid : Path.IsFileName name)
    (accepts : disk.Accepts (directory.join ⟨name⟩) place name) :
    disk.write (directory.join ⟨name⟩) bytes = .ok (disk.put (place ++ [name]) (.file bytes)) := by
  unfold write
  rw [(target_join leads there valid).mpr ⟨accepts, rfl⟩]
  rfl

theorem write_of_not_accepts (leads : disk.resolve directory = .ok place)
    (there : disk.entry? place = some .directory) (valid : Path.IsFileName name)
    (refuses : ¬disk.Accepts (directory.join ⟨name⟩) place name) :
    ∃ cause, disk.write (directory.join ⟨name⟩) bytes = .error cause := by
  cases wrote : disk.write (directory.join ⟨name⟩) bytes with
  | error cause => exact ⟨cause, rfl⟩
  | ok disk' =>
    obtain ⟨target, found, _⟩ := of_write wrote
    exact absurd ((target_join leads there valid).mp found).1 refuses

end Join

end Disk

namespace Artifact

/-- The file that the translation of a directory of this name goes to. -/
def programName (name : String) : String := s!"{(Path.splitName name).1}.asm"

/-- A directory of this name stands in another, and its virtual machine code is translated to the
text. -/
structure HoldsProgram (disk : Disk) (preferences : Preferences) (directory : Path)
    (parent : Location) (name text : String) : Prop where
  leads : disk.resolve directory = .ok (parent ++ [name])
  there : disk.entry? (parent ++ [name]) = some .directory
  valid : Path.IsFileName name
  stands : StandsFor disk preferences directory .vm text

section ProgramName

variable {name : String}

theorem programName_eq_iff {other : String} :
    programName name = programName other ↔
      (Path.splitName name).1 = (Path.splitName other).1 := by
  simp [programName, toString]

/-- The file has the whole name of the directory if no dot follows the first character. -/
theorem programName_eq_asm_iff : programName name = s!"{name}.asm" ↔ '.' ∉ name.toList.tail := by
  rw [← Path.splitName_eq_self_iff]
  simp [programName, toString]

theorem isFileName_programName (valid : Path.IsFileName name) :
    Path.IsFileName (programName name) := by
  have text : (programName name).toList =
      (Path.splitName name).1.toList ++ ['.', 'a', 's', 'm'] := by
    simp [programName, toString]
  have other (short : String) (few : short.toList.length < 4) : programName name ≠ short := by
    rintro rfl
    rw [text, List.length_append] at few
    exact absurd few (Nat.not_lt.mpr (Nat.le_add_left _ _))
  have inStem := (Path.splitName_stem name).1.subset
  constructor
  · exact other "" (by decide)
  · exact other "." (by decide)
  · exact other ".." (by decide)
  · rw [text]
    simpa using fun member => valid.whole (inStem member)
  · rw [text]
    simpa using fun member => valid.noZero (inStem member)

end ProgramName

section Program

variable {disk : Disk} {preferences : Preferences} {directory : Path} {parent : Location}
  {name text : String}

theorem HoldsProgram.isDirectory
    (holds : HoldsProgram disk preferences directory parent name text) :
    disk.isDirectory directory = true := by
  unfold Disk.isDirectory Disk.at?
  rw [holds.leads]
  simp only [holds.there]

theorem HoldsProgram.output_eq
    (holds : HoldsProgram disk preferences directory parent name text) :
    directoryOutput disk directory = .ok (directory.join ⟨programName name⟩) := by
  obtain ⟨nonempty, _⟩ := Disk.nonempty_of_resolve holds.leads
  unfold directoryOutput
  simp only [holds.leads, Except.toOption, Option.bind_some, List.getLast?_concat]
  have same : s!"{(Path.splitName name).1}.{SourceKind.assembly.extension}" = programName name := by
    apply String.toList_inj.mp
    simp [programName, toString, SourceKind.extension]
  rw [← same, ← Path.join_withExtension nonempty holds.valid (by decide)]
  rfl

theorem HoldsProgram.make_eq
    (holds : HoldsProgram disk preferences directory parent name text) :
    ∃ artifact, (make .vm disk preferences directory none).value = .ok artifact ∧
      artifact.text = text ∧ artifact.product.output = directory.join ⟨programName name⟩ ∧
      ∀ cause, (artifact.failure cause).1 = .write (directory.join ⟨programName name⟩) cause := by
  have chosen : vmOutput disk directory none = .ok (directory.join ⟨programName name⟩) := by
    rw [vmOutput, if_pos holds.isDirectory, holds.output_eq]
  cases holds.stands with
  | program finds loads translates =>
    rw [make, value_ofVm, finds]
    simp only [bind, Except.bind, loaded_of_forall₂ loads, translates, Except.mapError, chosen,
      pure, Except.pure]
    exact ⟨_, rfl, rfl, rfl, fun _ => rfl⟩

end Program

end Artifact

namespace Session

open Artifact

section Sample

private def push : DiskEntry := .file "push constant 1".toUTF8

/-- Two versions of a program, each in a directory of its own. -/
private def versions : Disk where
  home := []
  entries :=
    [(["Prog.v1"], .directory), (["Prog.v1", "Main.vm"], push),
      (["Prog.v2"], .directory), (["Prog.v2", "Main.vm"], push)]

private theorem holds_version : ∃ text,
    HoldsProgram versions .standard ⟨"/Prog.v2"⟩ [] "Prog.v2" text := by
  have made : (make .vm versions .standard ⟨"/Prog.v2"⟩ none).value.isOk = true := by
    decide +kernel
  cases value : (make .vm versions .standard ⟨"/Prog.v2"⟩ none).value with
  | error error =>
    rw [value] at made
    cases made
  | ok artifact =>
    have valid : Path.IsFileName "Prog.v2" := by constructor <;> decide
    exact ⟨artifact.text, rfl, rfl, valid, (standsFor_of_make value).1⟩

/-- The output of a version's translation. -/
private def versionOutput (directory : Path) : Option Path :=
  (processAs .vm .standard directory none ⟨versions, .empty⟩).1.toOption.map Product.output

private theorem of_versionOutput {directory output : Path}
    (found : versionOutput directory = some output) :
    ∃ product, (processAs .vm .standard directory none ⟨versions, .empty⟩).1 = .ok product ∧
      product.output = output := by
  obtain ⟨product, succeeded, same⟩ := Option.map_eq_some_iff.mp found
  exact ⟨product, Except.ok_of_toOption succeeded, same⟩

end Sample

/-- A directory of virtual machine code is translated to one file in it, which no other change of
the disk goes with, unless that file cannot be written. It is called after the directory up to the
last dot of the directory's name, if that dot is not its first character: so by the whole name
exactly if there is no such dot, and two directories have the same name for it exactly if their
names agree up to there. -/
theorem process_directory {preferences : Preferences} {session : Session} {directory : Path}
    {parent : Location} {name text : String}
    (holds : HoldsProgram session.disk preferences directory parent name text) :
    let output := directory.join ⟨programName name⟩
    let ended := processAs .vm preferences directory none session
    (session.disk.Accepts output (parent ++ [name]) (programName name) →
      (∃ product, ended.1 = .ok product ∧ product.input = directory ∧ product.output = output) ∧
        ended.2.disk =
          session.disk.put (parent ++ [name, programName name]) (.file text.toUTF8)) ∧
      (¬session.disk.Accepts output (parent ++ [name]) (programName name) →
        (∃ cause, ended.1 = .error (.write output cause)) ∧ ended.2.disk = session.disk) ∧
      (output = directory.join ⟨s!"{name}.asm"⟩ ↔ '.' ∉ name.toList.tail) ∧
      ∀ directory' parent' name' text',
        HoldsProgram session.disk preferences directory' parent' name' text' →
        (output.fileName? = (directory'.join ⟨programName name'⟩).fileName? ↔
          (Path.splitName name).1 = (Path.splitName name').1) := by
  intro output ended
  obtain ⟨nonempty, _⟩ := Disk.nonempty_of_resolve holds.leads
  obtain ⟨artifact, made, text_eq, output_eq, failure⟩ := holds.make_eq
  have valid := isFileName_programName holds.valid
  have settles : (ended.1, ended.2.disk) = written session.disk artifact := by
    rw [processAs_eq, made]
    rfl
  refine ⟨?_, ?_, ?_, ?_⟩
  · intro accepts
    have wrote := @Disk.write_of_accepts _ _ _ _ text.toUTF8 holds.leads holds.there valid accepts
    rw [written, output_eq, text_eq, wrote, List.append_assoc] at settles
    obtain ⟨succeeded, disk_eq⟩ := Prod.mk.inj settles
    exact ⟨⟨_, succeeded, (standsFor_of_make made).2.1, output_eq⟩, disk_eq⟩
  · intro refuses
    obtain ⟨cause, wrote⟩ :=
      @Disk.write_of_not_accepts _ _ _ _ text.toUTF8 holds.leads holds.there valid refuses
    rw [written, output_eq, text_eq, wrote] at settles
    obtain ⟨failed, disk_eq⟩ := Prod.mk.inj settles
    exact ⟨⟨cause, failed.trans (congrArg Except.error (failure cause))⟩, disk_eq⟩
  · have whole : '/' ∉ (s!"{name}.asm").toList := by
      simpa [toString] using holds.valid.whole
    rw [Path.join_inj nonempty valid.whole whole]
    exact programName_eq_asm_iff
  · intro directory' parent' name' text' holds'
    obtain ⟨nonempty', _⟩ := Disk.nonempty_of_resolve holds'.leads
    rw [Path.fileName?_join nonempty valid,
      Path.fileName?_join nonempty' (isFileName_programName holds'.valid), Option.some.injEq,
      programName_eq_iff]

/-- A version is translated to a file in its directory. -/
theorem process_version : ∃ text,
    HoldsProgram versions .standard ⟨"/Prog.v2"⟩ [] "Prog.v2" text ∧
      (processAs .vm .standard ⟨"/Prog.v2"⟩ none ⟨versions, .empty⟩).2.disk =
        versions.put ["Prog.v2", programName "Prog.v2"] (.file text.toUTF8) := by
  obtain ⟨text, holds⟩ := holds_version
  have fits : versions.Accepts (Path.join ⟨"/Prog.v2"⟩ ⟨programName "Prog.v2"⟩) ["Prog.v2"]
      (programName "Prog.v2") := by
    have free : versions.entry? ["Prog.v2", programName "Prog.v2"] = none := rfl
    exact ⟨by decide +kernel, by decide +kernel, fun full => nomatch free.symm.trans full⟩
  exact ⟨text, holds, ((@process_directory _ ⟨versions, .empty⟩ _ _ _ _ holds).1 fits).2⟩

/-- The second version is not translated to a file with its whole name, but to one with the same
name as that of the first version. -/
theorem process_versions : ∃ first second,
    (processAs .vm .standard ⟨"/Prog.v1"⟩ none ⟨versions, .empty⟩).1 = .ok first ∧
      (processAs .vm .standard ⟨"/Prog.v2"⟩ none ⟨versions, .empty⟩).1 = .ok second ∧
      second.output ≠ Path.join ⟨"/Prog.v2"⟩ ⟨"Prog.v2.asm"⟩ ∧
      first.output.fileName? = second.output.fileName? := by
  obtain ⟨first, succeeds, output⟩ :=
    @of_versionOutput ⟨"/Prog.v1"⟩ ⟨"/Prog.v1/Prog.asm"⟩ (by decide +kernel)
  obtain ⟨second, succeeds', output'⟩ :=
    @of_versionOutput ⟨"/Prog.v2"⟩ ⟨"/Prog.v2/Prog.asm"⟩ (by decide +kernel)
  refine ⟨first, second, succeeds, succeeds', ?_, ?_⟩
  · rw [output']
    decide +kernel
  · rw [output, output']
    decide +kernel

end Session

end NandTools
