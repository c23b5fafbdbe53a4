import NandTools.Limits
import NandTools.Log.Code
import NandTools.Text.Quoted

/-! Reasons why a source file cannot be read. -/
namespace NandTools

inductive FileError where
  | fileNotFound (path : String)
  | invalidExtension (expected : String) (found? : Option String)
  | fileTooLarge (size : Nat)
  | emptyFile
  | invalidEncoding (path : String)
  | invalidPath (path : String)
  | tooManyLines (lines : Nat)
deriving Repr, DecidableEq

namespace FileError

private def found : Option String → String
  | some extension => s!"Some({Text.quoted extension})"
  | none => "None"

def message : FileError → String
  | fileNotFound path => s!"File not found: {path}"
  | invalidExtension expected found? =>
    s!"Invalid file extension: expected .{expected}, found {found found?}"
  | fileTooLarge size => s!"File too large: {size} bytes (max: {Limits.sourceBytes})"
  | emptyFile => "File is empty"
  | invalidEncoding path => s!"Invalid UTF-8 encoding in file: {path}"
  | invalidPath path => s!"Invalid file path: {path}"
  | tooManyLines lines => s!"File exceeds maximum line count: {lines} (max: {Limits.sourceLines})"

def code : FileError → Code
  | fileNotFound _ => .fileNotFound
  | invalidExtension .. => .invalidExtension
  | fileTooLarge _ => .fileTooLarge
  | emptyFile => .emptyFile
  | invalidEncoding _ => .invalidEncoding
  | invalidPath _ => .invalidPath
  | tooManyLines _ => .tooManyLines

end FileError

end NandTools
