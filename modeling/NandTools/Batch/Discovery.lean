import NandTools.Limits
import NandTools.Pipeline.Artifact

/-! The classes in a directory, found for a batch. -/
namespace NandTools

inductive BatchError where
  | directoryNotFound (path : String)
  | noFilesFound (path : String)
  | tooManyFiles (count limit : Nat)
deriving Repr, DecidableEq

def BatchError.message : BatchError → String
  | directoryNotFound path => s!"Directory not found: {path}"
  | noFilesFound path => s!"No Jack files found in directory: {path}"
  | tooManyFiles count limit => s!"Too many files found: {count} (max: {limit})"

namespace Batch

open Reported

/-- The class files in a directory, or with `deep` also those in the directories below it. -/
def classFiles (disk : Disk) (directory : Path) (deep : Bool) : Except DiskError (List Path) :=
  (disk.files directory deep).map fun files => files.filter (·.hasExtension "jack")

/-- Whether a directory holds a class file itself. -/
def holdsClasses (disk : Disk) (directory : Path) : Bool :=
  match classFiles disk directory false with
  | .ok files => !files.isEmpty
  | .error _ => false

/-- The class files that a batch is to process, in path order. -/
def discover (disk : Disk) (directory : Path) (deep : Bool) (maxFiles : Nat) :
    Reported BatchError (List Path) := do
  report (.info "Starting file discovery"
    [("directory", directory.text), ("recursive", toString deep)])
  match classFiles disk directory deep with
  | .error _ => throw (.directoryNotFound directory.text)
  | .ok [] => throw (.noFilesFound directory.text)
  | .ok files =>
    let limit := min maxFiles Limits.batchFiles
    if files.length > limit then throw (.tooManyFiles files.length limit)
    else
      report (.debug "File discovery completed"
        [("files_found", toString files.length), ("directory", directory.text)])
      return Path.sorted files

end Batch

end NandTools
