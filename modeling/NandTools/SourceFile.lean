import NandTools.Disk
import NandTools.Log.Reported
import NandTools.Preferences
import NandTools.SourceFile.Error
import NandTools.Text.Blank
import NandTools.Text.Fixed
import NandTools.Text.Lines
import NandTools.Text.Lowercase

/-! Source files read from a disk, within bounds on their size and with the extension that their
reader expects. Reading is taken to need no time, so every duration and rate in a report is zero. -/
namespace NandTools

/-- A file that was read. Its path is absolute and its extension in lower case. -/
structure SourceFile where
  path : Path
  size : Nat
  extension? : Option String
  lineCount : Nat
  text : String
deriving Repr

namespace SourceFile

open Reported

/-- The file name without its extension. -/
def moduleName (file : SourceFile) : String := file.path.stem?.getD ""

def hasExtension (file : SourceFile) (extension : String) : Bool :=
  file.extension? == some extension

/-- Sizes from 1024 on are shown in a larger unit, with two decimals. -/
def humanSize (size : Nat) : String :=
  if size < 1024 then s!"{size} B"
  else if size < 1024 * 1024 then s!"{Text.fixedRatio 2 size 1024} KB"
  else if size < 1024 * 1024 * 1024 then s!"{Text.fixedRatio 2 size (1024 * 1024)} MB"
  else s!"{Text.fixedRatio 2 size (1024 * 1024 * 1024)} GB"

def isLargeSize (size : Nat) : Bool := size > Limits.largeSourceBytes

def isLarge (file : SourceFile) : Bool := isLargeSize file.size

def charCount (file : SourceFile) : Nat := file.text.length

def isBlank (file : SourceFile) : Bool := file.text.toList.all Text.isBlank

/-- The place and the contents of the file that a path names. -/
def locate (disk : Disk) (path : Path) : Reported FileError (Location × ByteArray) := do
  let shown := path.text
  if shown.isEmpty then
    abort (.error .invalidPath "Empty file path provided" []) (.invalidPath shown)
  else
    match disk.resolve path with
    | .error _ =>
      abort (.error .fileNotFound "File not found" [("path", shown)]) (.fileNotFound shown)
    | .ok place =>
      match disk.entry? place with
      | some (.file bytes) => return (place, bytes)
      | _ => abort (.error .invalidPath "Path is not a file" [("path", shown)]) (.invalidPath shown)

/-- Refuse files that are too large or empty, or that have not the expected extension. -/
def check (shown : String) (size : Nat) (extension? : Option String) (required? : Option String) :
    Reported FileError Unit := do
  if size > Limits.sourceBytes then
    abort (.error .fileTooLarge "File exceeds compile-time maximum size limit"
      [("file", shown), ("size_bytes", toString size),
        ("limit_bytes", toString Limits.sourceBytes)]) (.fileTooLarge size)
  else if size = 0 then abort (.error .emptyFile "File is empty" [("file", shown)]) .emptyFile
  else
    match required? with
    | none => return
    | some required =>
      if extension? = some required then return
      else
        abort (.error .invalidExtension "File does not have the expected extension"
          [("file", shown), ("extension", extension?.getD "none"), ("required", required)])
          (.invalidExtension required extension?)

/-- The text of a file, unless it has too many lines or is no text. -/
def decode (shown : String) (path : Path) (bytes : ByteArray) :
    Reported FileError (String × Nat) := do
  match String.fromUTF8? bytes with
  | none =>
    abort (.error .invalidEncoding "Invalid UTF-8 encoding in file" [("file", shown)])
      (.invalidEncoding path.text)
  | some text =>
    let lineCount := (Text.lines text.toList).length
    if lineCount > Limits.sourceLines then
      abort (.error .tooManyLines "File exceeds maximum line count"
        [("file", shown), ("lines", toString lineCount),
          ("max_lines", toString Limits.sourceLines)]) (.tooManyLines lineCount)
    else return (text, lineCount)

/-- What is reported of a file that was read. -/
def loadedEvent (preferences : FilePreferences) (shown : String) (file : SourceFile) : Event :=
  if preferences.reportTimes then
    .success .fileLoaded "File processed successfully with performance metrics"
      [("file", shown), ("size_human", humanSize file.size), ("lines", toString file.lineCount),
        ("chars", toString file.charCount), ("duration_ms", "0.00"), ("chars_per_ms", "0.00"),
        ("is_large_file", toString file.isLarge)]
  else
    .success .fileLoaded "File processed successfully"
      [("file", shown), ("size_bytes", toString file.size), ("lines", toString file.lineCount),
        ("duration_ms", "0.00")]

/-- Read the file at a path. An expected extension matters only if the preferences say so. -/
def load (disk : Disk) (preferences : FilePreferences) (expected? : Option String) (path : Path) :
    Reported FileError SourceFile := do
  let shown := path.text
  report (.debug "Starting file processing" [("file", shown)])
  let (place, bytes) ← locate disk path
  let full := Disk.pathOf place
  let extension? := full.extension?.map Text.lower
  let size := bytes.size
  report (.debug "File metadata collected"
    [("size_human", humanSize size), ("extension", extension?.getD "none"),
      ("is_large_file", toString (isLargeSize size))])
  let required? := if preferences.requireExtension then expected?.map Text.lower else none
  check shown size extension? required?
  let (text, lineCount) ← decode shown full bytes
  let file : SourceFile := ⟨full, size, extension?, lineCount, text⟩
  report (loadedEvent preferences shown file)
  return file

end SourceFile

end NandTools
