import NandTools.Path
import NandTools.Preferences
import NandTools.Text.Numeral

/-! Options given on the command line. -/
namespace NandTools

inductive OptionError where
  | missingValue (option what : String)
  | unknownFormat (name : String)
  | invalidThreads (text : String)
deriving Repr, DecidableEq

def OptionError.message : OptionError → String
  | missingValue option what => s!"{option} requires {what}"
  | unknownFormat name => s!"Unknown tree format '{name}'"
  | invalidThreads text => s!"Invalid thread count '{text}'"

structure Options where
  input : Path
  output? : Option Path := none
  format? : Option TreeFormat := none
  config? : Option Path := none
  threads? : Option Nat := none
  recursive : Bool := false
  failFast : Bool := false
  quiet : Bool := false
deriving Repr, DecidableEq

namespace Options

/-- Read the words after the input. A word that is no option is passed over and comes back in the
list, up to the first error. -/
def read (options : Options) : List String → List String × Except OptionError Options
  | [] => ([], .ok options)
  | "--output" :: path :: rest | "-o" :: path :: rest =>
    read { options with output? := some ⟨path⟩ } rest
  | ["--output"] | ["-o"] => ([], .error (.missingValue "--output" "a path"))
  | "--format" :: name :: rest =>
    match TreeFormat.ofName? name with
    | some format => read { options with format? := some format } rest
    | none => ([], .error (.unknownFormat name))
  | ["--format"] => ([], .error (.missingValue "--format" "xml or json"))
  | "--config" :: path :: rest => read { options with config? := some ⟨path⟩ } rest
  | ["--config"] => ([], .error (.missingValue "--config" "a file"))
  | "--threads" :: text :: rest =>
    match Text.readSigned (UInt64.size - 1) text.toList with
    | some threads => read { options with threads? := some threads } rest
    | none => ([], .error (.invalidThreads text))
  | ["--threads"] => ([], .error (.missingValue "--threads" "a number"))
  | "--sequential" :: rest => read { options with threads? := some 1 } rest
  | "--recursive" :: rest => read { options with recursive := true } rest
  | "--fail-fast" :: rest => read { options with failFast := true } rest
  | "--quiet" :: rest => read { options with quiet := true } rest
  | word :: rest =>
    let (unknown, result) := read options rest
    (word :: unknown, result)

end Options

end NandTools
