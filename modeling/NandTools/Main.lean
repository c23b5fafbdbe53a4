import NandTools.CommandLine
import NandTools.Text.Timestamp
import Std.Time.DateTime

/-! The command. It takes from the machine what a run may look at, lets the run happen on that
copy, and then shows and writes what came of it. -/
namespace NandTools.Machine

/-- The location that a path names when each step up takes back the step before it. -/
def locationOf (home : Location) (path : Path) : Location :=
  path.pieces.foldl (fun place piece =>
    if Path.isIdle piece then place
    else if piece = ['.', '.'] then place.dropLast
    else place ++ [String.ofList piece]) (if path.isAbsolute then [] else home)

/-- Only sources and configurations are read; other files are known by name. -/
def isRead (location : Location) (wanted : Bool) : Bool :=
  wanted || ["jack", "asm", "vm"].any fun extension =>
    (Disk.pathOf location).hasExtension extension

/-- Copy the entry at a location. What cannot be looked at is taken not to be there. -/
def copyEntry (disk : Disk) (location : Location) (wanted : Bool) : IO Disk := do
  let path := (Disk.pathOf location).text
  try
    if ← (← IO.FS.realPath path).isDir then return disk.install location .directory
    else if isRead location wanted then
      return disk.install location (.file (← IO.FS.readBinFile path))
    else if ← (← IO.FS.realPath path).pathExists then
      return disk.install location (.file .empty)
    else return disk
  catch _ => return disk

/-- Copy what is in a directory, or with `deep` also what is below it. -/
partial def copyBelow (disk : Disk) (location : Location) (deep : Bool) : IO Disk := do
  let path := (Disk.pathOf location).text
  let entries ← try (← IO.FS.realPath path).readDir catch _ => pure #[]
  entries.foldlM (fun disk entry => do
    let inner := location ++ [entry.fileName]
    let disk ← copyEntry disk inner false
    match disk.entry? inner with
    | some .directory => if deep then copyBelow disk inner deep else return disk
    | _ => return disk) disk

/-- Copy what a path leads to, and the places it passes on the way. -/
def copyPath (disk : Disk) (path : Path) (deep : Bool) : IO Disk := do
  let ways := (List.range path.pieces.length).map fun n => path.pieces.take (n + 1)
  let disk ← ways.foldlM (fun disk way =>
    let text := "/".intercalate (way.map String.ofList)
    copyEntry disk (locationOf disk.home ⟨text ++ "/"⟩) true) disk
  let place := locationOf disk.home path
  match disk.entry? place with
  | some .directory => copyBelow disk place deep
  | _ => return disk

/-- Everything a run with these arguments may look at. Every argument may be a path. -/
def copyFor (home : Location) (arguments : List String) : IO Disk := do
  let start : Disk := { (⟨[], []⟩ : Disk).install home .directory with home }
  let deep := arguments.contains "--recursive"
  arguments.foldlM (fun disk argument => copyPath disk ⟨argument⟩ deep) start

/-- Write the files that are new or have changed. -/
def writeChanges (before after : Disk) : IO Unit :=
  after.entries.forM fun (location, entry) => do
    match entry, before.entry? location with
    | .file bytes, some (.file old) =>
      if bytes == old then return else IO.FS.writeBinFile (Disk.pathOf location).text bytes
    | .file bytes, _ => IO.FS.writeBinFile (Disk.pathOf location).text bytes
    | .directory, _ => return

def environment : IO Environment := do
  let values ← Environment.names.mapM fun name => do return (← IO.getEnv name).map ((name, ·))
  return values.filterMap id

def command (arguments : List String) : IO UInt32 := do
  let current := (← IO.currentDir).toString
  let home := locationOf [] ⟨current⟩
  let disk ← copyFor home arguments
  let now := (← Std.Time.Timestamp.now).toMillisecondsSinceUnixEpoch.val
  let outcome := CommandLine.run
    { program := "hack", arguments, environment := ← environment, disk,
      processors := Limits.batchThreads, stamp := Text.timestamp now }
  writeChanges disk outcome.disk
  IO.print outcome.stdout
  IO.eprint outcome.stderr
  return UInt32.ofNat outcome.exitCode

end NandTools.Machine

def main (arguments : List String) : IO UInt32 := NandTools.Machine.command arguments
