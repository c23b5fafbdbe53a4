import NandTools.CommandLine
import NandTools.Proofs.Batch.Modes

/-! Which directories the command takes as batches. It decides by the classes that are directly in
the directory, and the batch then looks for the classes that it is to take. The two agree unless the
search goes into the directories below and all classes are there. -/
namespace NandTools

namespace Batch

section Search

variable {disk : Disk} {directory : Path}

/-- A class file stands in a directory or below it: the names lead to it from there. -/
def ClassBelow (disk : Disk) (directory : Path) (names : Location) : Prop :=
  ∃ place bytes, disk.directory directory = .ok place ∧ names ≠ [] ∧
    (place ++ names, .file bytes) ∈ disk.entries ∧
    (directory.join ⟨"/".intercalate names⟩).hasExtension "jack" = true

theorem mem_classFiles_iff {path : Path} {deep : Bool} {files : List Path}
    (listed : classFiles disk directory deep = .ok files) : path ∈ files ↔
      ∃ names, (deep = true ∨ names.length = 1) ∧ ClassBelow disk directory names ∧
        path = directory.join ⟨"/".intercalate names⟩ := by
  obtain ⟨all, found, rfl⟩ := Except.ok_of_map listed
  obtain ⟨place, leads, found⟩ := Except.ok_of_bind found
  cases found
  simp only [List.mem_filter, List.mem_filterMap]
  constructor
  · rintro ⟨⟨⟨names, entry⟩, among, isFile⟩, isClass⟩
    obtain ⟨inside, among⟩ := Disk.mem_below_iff.mp among
    cases entry with
    | directory => cases isFile
    | file bytes =>
      dsimp only at isFile
      split at isFile
      · next reached =>
        cases isFile
        exact ⟨names, by simpa using reached, ⟨place, bytes, leads, inside, among, isClass⟩, rfl⟩
      · cases isFile
  · rintro ⟨names, reached, ⟨place', bytes, leads', inside, among, isClass⟩, rfl⟩
    cases leads.symm.trans leads'
    refine ⟨⟨(names, .file bytes), Disk.mem_below_iff.mpr ⟨inside, among⟩, ?_⟩, isClass⟩
    have reached : (deep || names.length == 1) = true := by simpa using reached
    simp [reached]

/-- What a directory holds is listed, and the list is empty if no class is within reach. -/
theorem classFiles_of_isDirectory (isDirectory : disk.isDirectory directory = true) (deep : Bool) :
    ∃ files, classFiles disk directory deep = .ok files ∧ (files ≠ [] ↔
      ∃ names, (deep = true ∨ names.length = 1) ∧ ClassBelow disk directory names) := by
  obtain ⟨place, leads⟩ := Disk.directory_of_isDirectory isDirectory
  obtain ⟨files, listed⟩ : ∃ files, classFiles disk directory deep = .ok files := by
    unfold classFiles Disk.files
    rw [leads]
    exact ⟨_, rfl⟩
  refine ⟨files, listed, ?_⟩
  constructor
  · intro listedSome
    obtain ⟨path, among⟩ := List.exists_mem_of_ne_nil files listedSome
    obtain ⟨names, reached, below, _⟩ := (mem_classFiles_iff listed).mp among
    exact ⟨names, reached, below⟩
  · rintro ⟨names, reached, below⟩
    exact List.ne_nil_of_mem ((mem_classFiles_iff listed).mpr ⟨names, reached, below, rfl⟩)

theorem holdsClasses_iff (isDirectory : disk.isDirectory directory = true) :
    holdsClasses disk directory = true ↔ ∃ name, ClassBelow disk directory [name] := by
  obtain ⟨files, listed, listedSome⟩ := classFiles_of_isDirectory isDirectory false
  have holds : holdsClasses disk directory = true ↔ files ≠ [] := by
    simp [holdsClasses, listed]
  rw [holds, listedSome]
  constructor
  · rintro ⟨names, deep | single, below⟩
    · cases deep
    · obtain ⟨name, rfl⟩ := List.length_eq_one_iff.mp single
      exact ⟨name, below⟩
  · rintro ⟨name, below⟩
    exact ⟨[name], .inr rfl, below⟩

theorem found_ne_noFilesFound_iff (isDirectory : disk.isDirectory directory = true)
    (options : BatchOptions) :
    found options directory disk ≠ .error (.noFilesFound directory.text) ↔
      ∃ names, (options.recursive = true ∨ names.length = 1) ∧
        ClassBelow disk directory names := by
  obtain ⟨files, listed, listedSome⟩ := classFiles_of_isDirectory isDirectory options.recursive
  rw [← listedSome, found, value_discover, listed]
  cases files with
  | nil => simp
  | cons path rest =>
    dsimp only
    split <;> simp

end Search

end Batch

namespace CommandLine

/-- A run shows that it is a batch over a directory. -/
def Outcome.StartsBatch (outcome : Outcome) (directory : Path) : Prop :=
  (s!"Starting batch processing: {directory.text}\n").toList <+: outcome.stdout.toList

/-- The words of a request are read as these options, and the run gets these preferences. -/
structure Reads (request : Request) (options : Options) (preferences : Preferences) : Prop where
  words : ∃ rest unknown, request.arguments = options.input.text :: rest ∧
    Options.read { input := options.input } rest = (unknown, .ok options)
  works : options.input.text ≠ "--help"
  chosen : CommandLine.preferences request options = .ok preferences

section Sample

/-- A request for a batch over the whole disk with the directories in it. -/
private def recursively (entries : List (Location × DiskEntry)) : Request where
  program := "hack"
  arguments := ["/", "--recursive"]
  environment := []
  disk := ⟨[], entries⟩
  processors := 1
  stamp := ""

private def wanted : Options where
  input := ⟨"/"⟩
  recursive := true

private theorem reads_recursively (entries : List (Location × DiskEntry)) :
    Reads (recursively entries) wanted Preferences.standard where
  words := ⟨["--recursive"], [], rfl, by simp [Options.read, wanted]⟩
  works := by decide
  chosen := rfl

private def oneClass : DiskEntry := .file "class A \x7b \x7d".toUTF8

/-- A class in the directory and one in a directory below it. -/
private def both : List (Location × DiskEntry) :=
  [(["B.jack"], oneClass), (["sub"], .directory), (["sub", "A.jack"], oneClass)]

/-- The same without the class in the directory. -/
private def deeper : List (Location × DiskEntry) :=
  [(["sub"], .directory), (["sub", "A.jack"], oneClass)]

private theorem isDirectory_root (entries : List (Location × DiskEntry)) :
    (recursively entries).disk.isDirectory wanted.input = true := by
  unfold Disk.isDirectory Disk.at?
  have root : (recursively entries).disk.resolve wanted.input = .ok [] := rfl
  rw [root]
  rfl

private theorem below_of_mem {entries : List (Location × DiskEntry)} {names : Location}
    (among : (names, oneClass) ∈ entries) (inside : names ≠ [])
    (isClass : (wanted.input.join ⟨"/".intercalate names⟩).hasExtension "jack" = true) :
    Batch.ClassBelow (recursively entries).disk wanted.input names := by
  have leads : (recursively entries).disk.directory wanted.input = .ok [] := rfl
  exact ⟨[], _, leads, inside, among, isClass⟩

end Sample

section Run

variable {request : Request} {options : Options} {preferences : Preferences}

theorem startsBatch_runBatch (session : Session) :
    (runBatch request preferences options session).StartsBatch options.input := by
  unfold runBatch Outcome.StartsBatch
  dsimp only
  split
  · simp [textOfLines, toString]
  · simp [textOfLines, toString]

theorem not_startsBatch_runSingle (session : Session) :
    ¬(runSingle request preferences options session).StartsBatch options.input := by
  have apart (text : String) :
      ¬(s!"Starting batch processing: {options.input.text}\n").toList <+:
        (s!"Processing: {options.input.text}\n" ++ text).toList := by
    rintro ⟨rest, same⟩
    simpa [toString] using congrArg List.head? same
  unfold runSingle Outcome.StartsBatch
  dsimp only
  split
  · exact apart _
  · exact fun starts => apart "" (by simpa using starts)

theorem startsBatch_runInput_iff (isDirectory : request.disk.isDirectory options.input = true)
    (session : Session) : (runInput request preferences options session).StartsBatch options.input ↔
      Batch.holdsClasses request.disk options.input = true := by
  unfold runInput
  simp only [isDirectory, Bool.true_and]
  by_cases holds : Batch.holdsClasses request.disk options.input = true
  · rw [if_pos holds]
    exact ⟨fun _ => holds, fun _ => startsBatch_runBatch session⟩
  · rw [if_neg holds]
    refine ⟨fun starts => ?_, fun holds' => absurd holds' holds⟩
    split at starts
    · exact absurd starts (not_startsBatch_runSingle session)
    · obtain ⟨rest, same⟩ := starts
      simpa [toString] using congrArg List.head? same

theorem Reads.startsBatch_iff (reads : Reads request options preferences)
    (isDirectory : request.disk.isDirectory options.input = true) :
    (run request).StartsBatch options.input ↔
      Batch.holdsClasses request.disk options.input = true := by
  obtain ⟨rest, unknown, arguments, read⟩ := reads.words
  obtain ⟨journal, opened⟩ : ∃ journal, Journal.open? none = .ok journal := ⟨_, rfl⟩
  rw [← @startsBatch_runInput_iff _ _ preferences isDirectory ⟨request.disk, journal⟩]
  unfold run Outcome.StartsBatch
  rw [arguments]
  split
  · next none => cases none
  · next help => exact absurd (List.cons.inj help).1 reads.works
  · next same =>
    cases same
    simp only [read, runOptions, reads.chosen, opened]

/-- A directory is taken as a batch if a class is directly in it, whatever the options are, and the
batch finds a class if one is within reach of its search. So the two differ exactly where the search
goes into the directories below, some class is there, and none is directly in the directory; a batch
that starts always finds a class. -/
theorem run_startsBatch_iff (reads : Reads request options preferences)
    (isDirectory : request.disk.isDirectory options.input = true) :
    let starts := (run request).StartsBatch options.input
    let finds := Batch.found (batchOptions request options) options.input request.disk ≠
      .error (.noFilesFound options.input.text)
    let below := Batch.ClassBelow request.disk options.input
    (starts ↔ ∃ name, below [name]) ∧
      (finds ↔ ∃ names, (options.recursive = true ∨ names.length = 1) ∧ below names) ∧
      (starts → finds) ∧
      ((starts ↔ finds) ↔
        ¬(options.recursive = true ∧ (∃ names, below names) ∧ ∀ name, ¬below [name])) := by
  intro starts finds below
  have starts_iff : starts ↔ ∃ name, below [name] :=
    (reads.startsBatch_iff isDirectory).trans (Batch.holdsClasses_iff isDirectory)
  have finds_iff : finds ↔ ∃ names, (options.recursive = true ∨ names.length = 1) ∧ below names :=
    Batch.found_ne_noFilesFound_iff isDirectory (batchOptions request options)
  have finds_of_starts (started : starts) : finds := by
    obtain ⟨name, there⟩ := starts_iff.mp started
    exact finds_iff.mpr ⟨[name], .inr rfl, there⟩
  refine ⟨starts_iff, finds_iff, finds_of_starts, ?_⟩
  constructor
  · rintro same ⟨deep, ⟨names, there⟩, none⟩
    obtain ⟨name, direct⟩ := starts_iff.mp (same.mpr (finds_iff.mpr ⟨names, .inl deep, there⟩))
    exact none name direct
  · intro agrees
    refine ⟨finds_of_starts, fun found => ?_⟩
    obtain ⟨names, reached, there⟩ := finds_iff.mp found
    by_contra idle
    have none (name : String) : ¬below [name] := fun direct => idle (starts_iff.mpr ⟨name, direct⟩)
    cases reached with
    | inl deep => exact agrees ⟨deep, ⟨names, there⟩, none⟩
    | inr single =>
      obtain ⟨name, rfl⟩ := List.length_eq_one_iff.mp single
      exact none name there

end Run

/-- A class directly in the directory is enough for a batch, which then finds it. -/
theorem both_taken : (run (recursively both)).StartsBatch wanted.input ∧
    Batch.found (batchOptions (recursively both) wanted) wanted.input (recursively both).disk ≠
      .error (.noFilesFound wanted.input.text) := by
  have direct : Batch.ClassBelow (recursively both).disk wanted.input ["B.jack"] :=
    below_of_mem (by simp [both]) (List.cons_ne_nil _ _) (by decide +kernel)
  obtain ⟨starts_iff, _, finds_of_starts, _⟩ :=
    run_startsBatch_iff (reads_recursively both) (isDirectory_root both)
  have starts := starts_iff.mpr ⟨"B.jack", direct⟩
  exact ⟨starts, finds_of_starts starts⟩

/-- A class in a directory below is found by the search of a batch that never starts. -/
theorem deeper_passed_over : wanted.recursive = true ∧
    ¬((run (recursively deeper)).StartsBatch wanted.input ↔
      Batch.found (batchOptions (recursively deeper) wanted) wanted.input
        (recursively deeper).disk ≠ .error (.noFilesFound wanted.input.text)) := by
  refine ⟨rfl, fun agrees => ?_⟩
  have there : Batch.ClassBelow (recursively deeper).disk wanted.input ["sub", "A.jack"] :=
    below_of_mem (by simp [deeper]) (List.cons_ne_nil _ _) (by decide +kernel)
  have finds := (Batch.found_ne_noFilesFound_iff (isDirectory_root deeper)
    (batchOptions (recursively deeper) wanted)).mpr ⟨_, .inl rfl, there⟩
  have holds := ((reads_recursively deeper).startsBatch_iff (isDirectory_root deeper)).mp
    (agrees.mpr finds)
  have empty : Batch.holdsClasses (recursively deeper).disk wanted.input = false := by
    decide +kernel
  exact Bool.noConfusion (holds.symm.trans empty)

end CommandLine

end NandTools
