import NandTools.Preferences
import NandTools.Toml.Document

/-! Preferences read from a TOML document. What the document leaves out keeps its default, and
keys it does not know are ignored. -/
namespace NandTools

namespace Toml

def boolean? : Toml → Option Bool
  | boolean value => some value
  | _ => none

def natural? : Toml → Option Nat
  | integer (.ofNat value) => some value
  | _ => none

/-- A choice between names: the name itself, or a table whose one key is the name and whose value
is empty. -/
def choice? {α : Type} (name : α → String) (choices : List α) (value : Toml) : Option α :=
  let named (text : String) : Option α := choices.find? fun choice => name choice == text
  match value with
  | string text => named text
  | table _ [(key, array [])] | table _ [(key, table _ [])] => named key
  | _ => none

/-- The parts of a record, by name from a table and by position from an array. A point in time has
no part with a name. -/
def parts? : Toml → Option (String → Nat → Option Toml)
  | table _ entries => some fun name _ => Entries.find? entries name
  | array elements => some fun _ position => elements[position]?
  | tables entries => some fun _ position => entries.reverse[position]?.map (table .header)
  | time => some fun _ _ => none
  | _ => none

/-- A part that is there has to be readable. -/
def orDefault {α : Type} (read : Toml → Option α) (default : α) : Option Toml → Option α
  | none => some default
  | some value => read value

end Toml

open Toml

def FilePreferences.ofToml? (default : FilePreferences) (value : Toml) :
    Option FilePreferences := do
  let part ← value.parts?
  return ⟨← orDefault boolean? default.requireExtension (part "require_matching_extension" 0),
    ← orDefault boolean? default.reportTimes (part "enable_performance_logging" 1)⟩

def ScanPreferences.ofToml? (default : ScanPreferences) (value : Toml) :
    Option ScanPreferences := do
  let part ← value.parts?
  return ⟨← orDefault boolean? default.countKinds (part "collect_detailed_metrics" 0),
    ← orDefault boolean? default.reportStrings (part "log_string_statistics" 1)⟩

def TreePreferences.ofToml? (default : TreePreferences) (value : Toml) :
    Option TreePreferences := do
  let part ← value.parts?
  let format? := choice? TreeFormat.extension [.xml, .json]
  return ⟨← orDefault format? default.format (part "format" 0),
    ← orDefault natural? default.indent (part "indent_width" 1),
    ← orDefault boolean? default.pretty (part "pretty_json" 2)⟩

def TranslationPreferences.ofToml? (default : TranslationPreferences) (value : Toml) :
    Option TranslationPreferences := do
  let part ← value.parts?
  return ⟨← orDefault boolean? default.bootstrap (part "write_bootstrap" 0),
    ← orDefault boolean? default.annotate (part "annotate_commands" 1)⟩

def LogPreferences.ofToml? (default : LogPreferences) (value : Toml) :
    Option LogPreferences := do
  let part ← value.parts?
  return ⟨← orDefault boolean? default.structured (part "use_structured_logging" 0),
    ← orDefault boolean? default.console (part "enable_console_logging" 1),
    ← orDefault (choice? Level.name Level.all) default.threshold (part "min_log_level" 2),
    ← orDefault boolean? default.summary (part "cargo_style_summary" 3)⟩

def Preferences.ofToml? (default : Preferences) (text : List Char) : Option Preferences := do
  let document ← document? text
  return {
    files := ← orDefault default.files.ofToml? default.files (document.find? "file_processor")
    scan := ← orDefault default.scan.ofToml? default.scan (document.find? "lexical")
    tree := ← orDefault default.tree.ofToml? default.tree (document.find? "tree")
    translation := ←
      orDefault default.translation.ofToml? default.translation (document.find? "translator")
    log := ← orDefault default.log.ofToml? default.log (document.find? "logging") }

end NandTools
