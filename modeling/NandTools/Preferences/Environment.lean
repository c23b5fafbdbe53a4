import NandTools.Preferences
import NandTools.Text.Numeral

/-! Preferences taken from the variables of the environment. -/
namespace NandTools

abbrev Environment := List (String × String)

namespace Environment

/-- The variables that matter. -/
def names : List String :=
  [ "HACK_REQUIRE_MATCHING_EXTENSION", "HACK_ENABLE_PERFORMANCE_LOGGING",
    "HACK_LEXICAL_DETAILED_METRICS", "HACK_LEXICAL_LOG_STRING_STATS", "HACK_TREE_FORMAT",
    "HACK_TREE_INDENT", "HACK_TREE_PRETTY_JSON", "HACK_VM_BOOTSTRAP", "HACK_VM_ANNOTATE",
    "HACK_LOGGING_USE_STRUCTURED", "HACK_LOGGING_ENABLE_CONSOLE", "HACK_LOGGING_MIN_LEVEL",
    "HACK_LOGGING_CARGO_STYLE" ]

def find? (environment : Environment) (name : String) : Option String :=
  (List.find? (fun entry => entry.1 == name) environment).map (·.2)

/-- A choice that is set to one of two words. Any other word leaves the default. -/
def flag (environment : Environment) (name : String) (default : Bool) : Bool :=
  match environment.find? name with
  | some "true" => true
  | some "false" => false
  | _ => default

/-- A number of 64 bits, with or without a plus sign. -/
def number (environment : Environment) (name : String) (default : Nat) : Nat :=
  ((environment.find? name).bind fun text =>
    Text.readSigned (UInt64.size - 1) text.toList).getD default

end Environment

namespace Preferences

def ofEnvironment (environment : Environment) : Preferences where
  files :=
    ⟨environment.flag "HACK_REQUIRE_MATCHING_EXTENSION" true,
      environment.flag "HACK_ENABLE_PERFORMANCE_LOGGING" false⟩
  scan :=
    ⟨environment.flag "HACK_LEXICAL_DETAILED_METRICS" true,
      environment.flag "HACK_LEXICAL_LOG_STRING_STATS" false⟩
  tree :=
    ⟨((environment.find? "HACK_TREE_FORMAT").bind TreeFormat.ofName?).getD .xml,
      environment.number "HACK_TREE_INDENT" 2, environment.flag "HACK_TREE_PRETTY_JSON" true⟩
  translation :=
    ⟨environment.flag "HACK_VM_BOOTSTRAP" true, environment.flag "HACK_VM_ANNOTATE" false⟩
  log :=
    ⟨environment.flag "HACK_LOGGING_USE_STRUCTURED" false,
      environment.flag "HACK_LOGGING_ENABLE_CONSOLE" true,
      ((environment.find? "HACK_LOGGING_MIN_LEVEL").bind Level.ofName?).getD .warning,
      environment.flag "HACK_LOGGING_CARGO_STYLE" true⟩

/-- The choices in force where nothing else is asked for. -/
def standard : Preferences := ofEnvironment []

end Preferences

end NandTools
