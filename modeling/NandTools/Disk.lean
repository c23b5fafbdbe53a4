import NandTools.Path

/-! A tree of directories and files, and the ways paths lead through it. -/
namespace NandTools

/-- The names on the way from the root to a place. -/
abbrev Location := List String

inductive DiskEntry where
  | file (bytes : ByteArray)
  | directory
deriving Inhabited

/-- All entries but the root, and the directory from which relative paths start. -/
structure Disk where
  home : Location
  entries : List (Location × DiskEntry)

inductive DiskError where
  | notFound
  | notADirectory
  | isADirectory
  | nameTooLong
  | zeroInName
deriving Repr, DecidableEq

def DiskError.message : DiskError → String
  | notFound => "No such file or directory (os error 2)"
  | notADirectory => "Not a directory (os error 20)"
  | isADirectory => "Is a directory (os error 21)"
  | nameTooLong => "File name too long (os error 36)"
  | zeroInName => "file name contained an unexpected NUL byte"

namespace Disk

def entry? (disk : Disk) (location : Location) : Option DiskEntry :=
  if location.isEmpty then some .directory
  else (disk.entries.find? fun entry => entry.1 == location).map (·.2)

/-- Put an entry at a location, in the place of the one that is there. -/
def put (disk : Disk) (location : Location) (entry : DiskEntry) : Disk :=
  { disk with
    entries := (disk.entries.filter fun other => other.1 != location) ++ [(location, entry)] }

/-- Put an entry at a location, with the directories above it. -/
def install (disk : Disk) (location : Location) (entry : DiskEntry) : Disk :=
  let above := (List.range location.length).tail.map location.take
  let missing := above.filter fun directory => (disk.entry? directory).isNone
  (missing.foldl (fun disk directory => disk.put directory .directory) disk).put location entry

def start (disk : Disk) (path : Path) : Location := if path.isAbsolute then [] else disk.home

/-- Take one step. A step leads on only from a directory. -/
def step (disk : Disk) (place : Location) (piece : List Char) : Except DiskError Location :=
  match disk.entry? place with
  | none => .error .notFound
  | some (.file _) => .error .notADirectory
  | some .directory =>
    if Path.isIdle piece then .ok place
    else if piece = ['.', '.'] then .ok place.dropLast
    else
      let name := String.ofList piece
      if name.utf8ByteSize > 255 then .error .nameTooLong
      else if (disk.entry? (place ++ [name])).isSome then .ok (place ++ [name])
      else .error .notFound

/-- Paths that no place can have. -/
def checkPath (path : Path) : Except DiskError Unit :=
  if path.text.toList.contains '\x00' then .error .zeroInName
  else if path.text.isEmpty then .error .notFound
  else if path.text.utf8ByteSize ≥ 4096 then .error .nameTooLong
  else .ok ()

/-- The place a path leads to. A slash at its end asks for a directory. -/
def resolve (disk : Disk) (path : Path) : Except DiskError Location := do
  checkPath path
  path.pieces.foldlM disk.step (disk.start path)

def has (disk : Disk) (path : Path) : Bool := (disk.resolve path).isOk

def at? (disk : Disk) (path : Path) : Option DiskEntry :=
  match disk.resolve path with
  | .ok place => disk.entry? place
  | .error _ => none

def isDirectory (disk : Disk) (path : Path) : Bool :=
  match disk.at? path with
  | some .directory => true
  | _ => false

def isFile (disk : Disk) (path : Path) : Bool :=
  match disk.at? path with
  | some (.file _) => true
  | _ => false

/-- The absolute path of a location. -/
def pathOf (location : Location) : Path := ⟨"/" ++ "/".intercalate location⟩

def read (disk : Disk) (path : Path) : Except DiskError ByteArray := do
  let place ← disk.resolve path
  match disk.entry? place with
  | some (.file bytes) => .ok bytes
  | some .directory => .error .isADirectory
  | none => .error .notFound

/-- The entries below a directory, each with the names that lead to it from there. -/
def below (disk : Disk) (place : Location) : List (Location × DiskEntry) :=
  disk.entries.filterMap fun (location, entry) =>
    if place.isPrefixOf location && place.length < location.length then
      some (location.drop place.length, entry)
    else none

def directory (disk : Disk) (path : Path) : Except DiskError Location := do
  let place ← disk.resolve path
  match disk.entry? place with
  | some .directory => .ok place
  | some (.file _) => .error .notADirectory
  | none => .error .notFound

/-- The files in a directory, or with `deep` also those in the directories below it. Each has the
path of the directory before its own names. -/
def files (disk : Disk) (path : Path) (deep : Bool) : Except DiskError (List Path) := do
  let place ← disk.directory path
  .ok <| (disk.below place).filterMap fun (names, entry) =>
    match entry with
    | .file _ => if deep || names.length == 1 then some (path.join ⟨"/".intercalate names⟩) else none
    | .directory => none

/-- The place that a path for a new file names. The last name need not be there, but all before
it; and it must not be that of a directory or look like one. -/
def target (disk : Disk) (path : Path) : Except DiskError Location := do
  checkPath path
  match (path.pieces.filter (!·.isEmpty)).reverse with
  | [] => .error .isADirectory
  | last :: before =>
    let place ← before.reverse.foldlM disk.step (disk.start path)
    match disk.entry? place with
    | some .directory =>
      let name := String.ofList last
      if path.text.toList.getLast? = some '/' || last = ['.'] || last = ['.', '.'] then
        .error .isADirectory
      else if name.utf8ByteSize > 255 then .error .nameTooLong
      else
        match disk.entry? (place ++ [name]) with
        | some .directory => .error .isADirectory
        | _ => .ok (place ++ [name])
    | some (.file _) => .error .notADirectory
    | none => .error .notFound

/-- Write a file, in the place of the one that is there. -/
def write (disk : Disk) (path : Path) (bytes : ByteArray) : Except DiskError Disk := do
  let place ← disk.target path
  .ok (disk.put place (.file bytes))

end Disk

end NandTools
