import NandTools.Proofs.Disk
import NandTools.Proofs.Log.Reported
import NandTools.SourceFile

/-! A file that is loaded holds the text on the disk, and loading depends on nothing else there. -/
namespace NandTools.SourceFile

open Reported

variable (disk : Disk) (path : Path)

instance : Blind (locate disk path) := by
  unfold locate
  dsimp only
  split
  · infer_instance
  · split
    · infer_instance
    · split <;> infer_instance

instance (shown : String) (size : Nat) (extension? required? : Option String) :
    Blind (check shown size extension? required?) := by
  unfold check
  split
  · infer_instance
  · split
    · infer_instance
    · split
      · infer_instance
      · split <;> infer_instance

instance (shown : String) (bytes : ByteArray) : Blind (decode shown path bytes) := by
  unfold decode
  split
  · infer_instance
  · dsimp only
    split <;> infer_instance

variable (preferences : FilePreferences) (expected? : Option String)

/-- What is made of the file at a place. -/
private def made (place : Location) (bytes : ByteArray) : Except FileError SourceFile :=
  let full := Disk.pathOf place
  let extension? := full.extension?.map Text.lower
  let required? := if preferences.requireExtension then expected?.map Text.lower else none
  do
    (check path.text bytes.size extension? required?).value
    let (text, lineCount) ← (decode path.text full bytes).value
    return ⟨full, bytes.size, extension?, lineCount, text⟩

theorem value_load : (load disk preferences expected? path).value =
    (locate disk path).value >>= fun found =>
      made path preferences expected? found.1 found.2 := by
  unfold load made
  simp only [value_bind, value_report, value_pure]
  rfl

instance : Blind (load disk preferences expected? path) := by
  unfold load
  infer_instance

variable {disk path preferences expected?}

/-- Whether a file is found and loaded depends on no entry that is set apart. -/
theorem load_congr {Apart : Location → Prop} {a b : Disk} (same : Disk.SameBut Apart a b)
    {before idle : List (List Char)} {name : String} (ends : path.EndsIn before name idle)
    (kept : ∀ parent, ¬Apart (parent ++ [name])) :
    (load a preferences expected? path).value = (load b preferences expected? path).value := by
  have located : (locate a path).value = (locate b path).value := by
    unfold locate
    dsimp only
    split
    · rfl
    · cases leads : a.resolve path with
      | ok place =>
        obtain ⟨leads', entry⟩ := same.resolve ends kept leads
        rw [leads']
        dsimp only
        rw [entry]
      | error e =>
        cases leads' : b.resolve path with
        | ok place => cases leads.symm.trans (same.symm.resolve ends kept leads').1
        | error e' => rfl
  rw [value_load, value_load, located]

theorem read_of_locate {place : Location} {bytes : ByteArray}
    (located : (locate disk path).value = .ok (place, bytes)) : disk.read path = .ok bytes := by
  unfold locate at located
  dsimp only at located
  split at located
  · cases located
  · split at located
    · cases located
    · next leads =>
      split at located
      · next found =>
        cases located
        rw [Disk.read, leads]
        simp only [bind, Except.bind, found]
      · cases located

private theorem toUTF8_of_valid {bytes : ByteArray} {text : String}
    (valid : String.fromUTF8? bytes = some text) : text.toUTF8 = bytes := by
  unfold String.fromUTF8? at valid
  split at valid
  · cases valid
    rfl
  · cases valid

/-- A file that is loaded has the text that is read from the disk. -/
theorem read_of_load {file : SourceFile}
    (loaded : (load disk preferences expected? path).value = .ok file) :
    disk.read path = .ok file.text.toUTF8 := by
  rw [value_load] at loaded
  obtain ⟨⟨place, bytes⟩, located, rest⟩ := Except.ok_of_bind loaded
  obtain ⟨_, _, rest⟩ := Except.ok_of_bind rest
  obtain ⟨⟨text, lines⟩, decoded, rest⟩ := Except.ok_of_bind rest
  cases rest
  rw [read_of_locate located]
  unfold decode at decoded
  split at decoded
  · cases decoded
  · next valid =>
    dsimp only at decoded
    split at decoded
    · cases decoded
    · cases decoded
      rw [toUTF8_of_valid valid]

end NandTools.SourceFile
