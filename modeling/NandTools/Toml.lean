/-! Values of the TOML configuration language, and the rules by which headers and keys may add to
a table. -/
namespace NandTools

/-- How a table came about, which decides who may still add to it. -/
inductive TomlOrigin where
  /-- named by a header of its own -/
  | header
  /-- on the way to a table that a header names -/
  | passage
  /-- on the way to a value that a dotted key names -/
  | dotted
  /-- written out in braces, and closed -/
  | braces
deriving Repr, DecidableEq

/-- Numbers with a fraction and points in time are kept only as such. -/
inductive Toml where
  | string (text : String)
  | integer (value : Int)
  | float
  | boolean (value : Bool)
  | time
  | array (elements : List Toml)
  | table (origin : TomlOrigin) (entries : List (String × Toml))
  /-- the tables that one doubly bracketed header has opened, the last one first -/
  | tables (entries : List (List (String × Toml)))
deriving Repr, Inhabited

namespace Toml

abbrev Entries := List (String × Toml)

def Entries.find? (entries : Entries) (key : String) : Option Toml :=
  (List.find? (fun entry => entry.1 == key) entries).map (·.2)

/-- Put `value` in the place of the entry for `key`, or at the end. -/
def Entries.put (key : String) (value : Toml) : Entries → Entries
  | [] => [(key, value)]
  | entry :: rest => if entry.1 = key then (key, value) :: rest else entry :: put key value rest

def empty : Toml := table .header []

/-- Change the innermost table on the way `keys`, making those that are missing. Of several
tables under one header the last is meant. -/
def within (f : TomlOrigin → Entries → Option (TomlOrigin × Entries)) (dotted : Bool) :
    List String → TomlOrigin → Entries → Option (TomlOrigin × Entries)
  | [], origin, entries => f origin entries
  | key :: keys, origin, entries => do
    let inner ← match entries.find? key with
      | none => do
        let (o, es) ← within f dotted keys (if dotted then .dotted else .passage) []
        pure (table o es)
      | some (table o es) =>
        if o = .braces || (dotted && o = .header) then none
        else do
          let (o, es) ← within f dotted keys o es
          pure (table o es)
      | some (tables (last :: others)) => do
        let (_, es) ← within f dotted keys .header last
        pure (tables (es :: others))
      | some _ => none
    some (origin, entries.put key inner)

/-- Enter a value under a dotted key. No entry may be there, and only tables that dotted keys have
made may be on the way. -/
def addValue (path : List String) (key : String) (value : Toml) :
    TomlOrigin → Entries → Option (TomlOrigin × Entries) :=
  within (fun origin entries =>
    if (entries.find? key).isSome || (!path.isEmpty && origin != .dotted) then none
    else some (origin, entries.put key value)) true path

/-- Enter the table that a header names. It may be there only as a passage. -/
def addTable (path : List String) (key : String) :
    TomlOrigin → Entries → Option (TomlOrigin × Entries) :=
  within (fun origin entries =>
    match entries.find? key with
    | none => some (origin, entries.put key empty)
    | some (table .passage inner) => some (origin, entries.put key (table .header inner))
    | some _ => none) false path

/-- Enter one more table under a doubly bracketed header. -/
def addElement (path : List String) (key : String) :
    TomlOrigin → Entries → Option (TomlOrigin × Entries) :=
  within (fun origin entries =>
    match entries.find? key with
    | none => some (origin, entries.put key (tables [[]]))
    | some (tables others) => some (origin, entries.put key (tables ([] :: others)))
    | some _ => none) false path

/-- Enter a value under a dotted key of the table that the last header named. -/
def addUnder (header path : List String) (key : String) (value : Toml) :
    TomlOrigin → Entries → Option (TomlOrigin × Entries) :=
  within (addValue path key value) false header

end Toml

end NandTools
