import NandTools.Log.Reported
import NandTools.Parser.Report
import NandTools.Pipeline.Error
import NandTools.Pipeline.Product
import NandTools.SourceFile
import NandTools.Symbols.Class
import NandTools.Token.Metrics
import NandTools.Tree.Render

/-! Outputs made from inputs on a disk, before they are written. Making one only reads the disk. -/
namespace NandTools

def Path.hasExtension (path : Path) (extension : String) : Bool :=
  (path.extension?.map String.toLower) == some extension

/-- A kind of source that has a way of its own through the tools. -/
inductive SourceKind where
  | jack | assembly | vm
deriving Repr, DecidableEq

namespace SourceKind

def extension : SourceKind → String
  | jack => "jack"
  | assembly => "asm"
  | vm => "vm"

/-- Directories hold virtual machine code; the kind of a file is told by its extension. -/
def ofPath? (disk : Disk) (path : Path) : Option SourceKind :=
  if disk.isDirectory path then some vm
  else [jack, assembly, vm].find? fun kind => path.hasExtension kind.extension

end SourceKind

/-- A product and the text of its output. -/
structure Artifact where
  product : Product
  text : String
  /-- the error if the output cannot be written, and what is then reported -/
  failure : DiskError → PipelineError × List Event
  /-- what is reported when the output is written -/
  written : Event
  /-- what is reported after that -/
  remarks : List Event

namespace Artifact

open Reported

def loadSource (disk : Disk) (preferences : FilePreferences) (kind : SourceKind)
    (path : Path) : Reported PipelineError SourceFile :=
  (SourceFile.load disk preferences (some kind.extension) path).mapError .fileProcessing

/-- Read the tokens of a file, with its text kept for messages. -/
def scan (preferences : ScanPreferences) (file : SourceFile) :
    Reported LexicalError TokenStream := do
  let name := ("file", file.path.text)
  report (.debug "Starting lexical analysis"
    [name, ("char_count", toString file.charCount), ("line_count", toString file.lineCount),
      ("max_tokens_allowed", toString Limits.tokens)])
  let text := file.text.toList
  let tokenization := tokenize preferences text
  let stream ← ofPair tokenization.result tokenization.events
  report (.success .tokenized "Tokenization completed"
    [name, ("tokens", toString tokenization.metrics.total),
      ("comments", toString tokenization.metrics.comments)])
  return { stream with index? := some (Source.LineIndex.ofText text) }

/-- What is known of a class whose variables were collected, or could not be. -/
def classSummary (tree : Tree) (tokens : Nat) : Except SymbolError ClassSymbols → ProductSummary
  | .ok symbols =>
    .parse symbols.name tokens symbols.symbolCount symbols.subroutines.size none
  | .error e => .parse (tree.className?.getD "") tokens 0 0 (some e.message)

/-- The tree of a class. A fault among its variables is only noted in the summary. -/
def ofClass (disk : Disk) (preferences : Preferences) (path : Path) (output? : Option Path) :
    Reported PipelineError Artifact := do
  report (.info "Starting Jack parse pipeline" [("file", path.text)])
  let file ← loadSource disk preferences.files .jack path
  let stream ← (scan preferences.scan file).mapError .lexicalAnalysis
  let (parsed, events) := parseStream stream
  let tree ← (ofPair parsed events).mapError .syntaxAnalysis
  let format := preferences.tree.format.extension
  let output := output?.getD (path.withExtension format)
  let (symbols, remark) := ClassSymbols.collect tree
  let summary := classSummary tree stream.length symbols
  return {
    product := ⟨path, output, file.size, summary⟩
    text := tree.render preferences.tree
    failure := fun cause => (.treeOutput output cause, [])
    written := .success .outputWritten "Parse tree written"
      [("path", output.text), ("format", format)]
    remarks := [remark] }

/-- An artifact whose text is written as it is. -/
def plain (product : Product) (text : String) : Artifact where
  product := product
  text := text
  failure := fun cause =>
    (.write product.output cause, [.error .writeFailed "Failed to write output"
      [("path", product.output.text), ("error", cause.message)]])
  written := .success .outputWritten "Output written"
    [("path", product.output.text), ("bytes", toString text.utf8ByteSize)]
  remarks := []

/-- The machine code of an assembly program. -/
def ofAssembly (disk : Disk) (preferences : Preferences) (path : Path) (output? : Option Path) :
    Reported PipelineError Artifact := do
  report (.info "Starting assembly pipeline" [("file", path.text)])
  let file ← loadSource disk preferences.files .assembly path
  let (assembled, events) := Assembly.ofSource file.text.toList
  let assembly ← (ofPair assembled events).mapError .assembly
  let output := output?.getD (path.withExtension "hack")
  return plain ⟨path, output, file.size, .assembly assembly.stats⟩ assembly.text

/-- The files in a directory that hold virtual machine code, by name. -/
def vmFiles (disk : Disk) (directory : Path) : Except PipelineError (List Path) :=
  match disk.files directory false with
  | .error cause => .error (.unreadableDirectory directory cause)
  | .ok files =>
    match files.filter (·.hasExtension "vm") with
    | [] => .error (.translation (.noVmFiles directory.text))
    | found => .ok (Path.sorted found)

/-- A file in the directory that is named after it. -/
def directoryOutput (disk : Disk) (directory : Path) : Except PipelineError Path :=
  match (disk.resolve directory).toOption.bind (·.getLast?) with
  | some name => .ok ((directory.join ⟨name⟩).withExtension "asm")
  | none => .error (.namelessOutput directory)

/-- The assembly program for a file with virtual machine code, or for all those in a directory.
Only a directory is a whole program, which may begin by calling its main function. -/
def ofVm (disk : Disk) (preferences : Preferences) (path : Path) (output? : Option Path) :
    Reported PipelineError Artifact := do
  report (.info "Starting VM translation pipeline" [("path", path.text)])
  let isDirectory := disk.isDirectory path
  let paths ← if isDirectory then liftExcept (vmFiles disk path) else pure [path]
  let files ← paths.mapM (loadSource disk preferences.files .vm)
  let modules := files.map fun file => (file.moduleName, file.text.toList)
  let bootstrap := isDirectory && preferences.translation.bootstrap
  let (translated, events) :=
    Translation.ofModules modules bootstrap preferences.translation.annotate
  let translation ← (ofPair translated events).mapError .translation
  let output ← match output? with
    | some output => pure output
    | none =>
      if isDirectory then liftExcept (directoryOutput disk path)
      else pure (path.withExtension "asm")
  let size := files.foldl (fun sum file => sum + file.size) 0
  return plain ⟨path, output, size, .translation translation.stats⟩ translation.assembly

/-- The artifact that an input of a kind is turned into. -/
def make (kind : SourceKind) (disk : Disk) (preferences : Preferences) (path : Path)
    (output? : Option Path) : Reported PipelineError Artifact :=
  match kind with
  | .jack => ofClass disk preferences path output?
  | .assembly => ofAssembly disk preferences path output?
  | .vm => ofVm disk preferences path output?

end Artifact

end NandTools
