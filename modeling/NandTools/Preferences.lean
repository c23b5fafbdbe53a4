import NandTools.Log.Event

/-! What a user may choose about a run. -/
namespace NandTools

structure FilePreferences where
  requireExtension : Bool
  reportTimes : Bool
deriving Repr, DecidableEq

structure ScanPreferences where
  countKinds : Bool
  reportStrings : Bool
deriving Repr, DecidableEq

inductive TreeFormat where
  | xml | json
deriving Repr, DecidableEq

def TreeFormat.extension : TreeFormat → String
  | xml => "xml"
  | json => "json"

/-- Letters count in either case. -/
def TreeFormat.ofName? (name : String) : Option TreeFormat :=
  match name.toLower with
  | "xml" => some .xml
  | "json" => some .json
  | _ => none

structure TreePreferences where
  format : TreeFormat
  indent : Nat
  pretty : Bool
deriving Repr, DecidableEq

structure TranslationPreferences where
  bootstrap : Bool
  annotate : Bool
deriving Repr, DecidableEq

structure LogPreferences where
  structured : Bool
  console : Bool
  threshold : Level
  summary : Bool
deriving Repr, DecidableEq

structure Preferences where
  files : FilePreferences
  scan : ScanPreferences
  tree : TreePreferences
  translation : TranslationPreferences
  log : LogPreferences
deriving Repr, DecidableEq

end NandTools
