/-! Paths: texts cut at slashes. Two texts that name the same steps are the same path, though
each keeps its own spelling. -/
namespace NandTools

inductive PathStep where
  | root | here | up
  | name (text : String)
deriving Repr, DecidableEq

namespace PathStep

def rank : PathStep → Nat
  | root => 0
  | here => 1
  | up => 2
  | name _ => 3

/-- Names come last, in the order of their characters. -/
def compare : PathStep → PathStep → Ordering
  | name a, name b => compareOfLessAndEq a b
  | a, b => Ord.compare a.rank b.rank

end PathStep

structure Path where
  text : String
deriving Repr, DecidableEq, Inhabited

namespace Path

/-- What stands before, between and after the slashes. -/
def pieces (path : Path) : List (List Char) := path.text.toList.splitOn '/'

def isAbsolute (path : Path) : Bool := path.text.toList.head? == some '/'

/-- Empty pieces and single dots name no step of their own. -/
def isIdle (piece : List Char) : Bool := piece.isEmpty || piece == ['.']

def stepOf (piece : List Char) : PathStep :=
  if piece = ['.', '.'] then .up else .name (String.ofList piece)

/-- Only a dot at the very start counts as a step. -/
def steps (path : Path) : List PathStep :=
  let rest := (path.pieces.filter (!isIdle ·)).map stepOf
  if path.isAbsolute then .root :: rest
  else if path.pieces.head? = some ['.'] then .here :: rest
  else rest

def compare (a b : Path) : Ordering := List.compareLex PathStep.compare a.steps b.steps

def sorted (paths : List Path) : List Path :=
  paths.mergeSort fun a b => (a.compare b).isLE

/-- The last step, when it is a name. -/
def fileName? (path : Path) : Option String :=
  match path.steps.getLast? with
  | some (.name text) => some text
  | _ => none

/-- Cut a file name at its last dot, unless nothing stands before that dot. -/
def splitName (name : String) : String × Option String :=
  let reversed := name.toList.reverse
  let tail := reversed.takeWhile (· != '.')
  match reversed.drop tail.length with
  | '.' :: c :: rest => (String.ofList (c :: rest).reverse, some (String.ofList tail.reverse))
  | _ => (name, none)

def stem? (path : Path) : Option String := path.fileName?.map fun name => (splitName name).1

def extension? (path : Path) : Option String := path.fileName?.bind fun name => (splitName name).2

/-- Put `extension` in place of the one the path has. A path without a file name is kept. -/
def withExtension (path : Path) (extension : String) : Path :=
  match path.stem?, path.pieces.reverse.dropWhile isIdle with
  | some stem, _ :: before =>
    ⟨"/".intercalate ((before.reverse.map String.ofList) ++ [s!"{stem}.{extension}"])⟩
  | _, _ => path

/-- An absolute path stands for itself wherever it is looked up. -/
def join (base path : Path) : Path :=
  if path.isAbsolute || base.text.isEmpty then path
  else if base.text.toList.getLast? = some '/' then ⟨base.text ++ path.text⟩
  else ⟨base.text ++ "/" ++ path.text⟩

end Path

end NandTools
