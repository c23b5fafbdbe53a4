import NandTools.Assembly.Error
import NandTools.Disk
import NandTools.Parser.Error
import NandTools.SourceFile.Error
import NandTools.Vm.Error

/-! Reasons why an input cannot be turned into its output. -/
namespace NandTools

inductive PipelineError where
  | fileProcessing (cause : FileError)
  | lexicalAnalysis (cause : LexicalError)
  | syntaxAnalysis (cause : SyntaxError)
  | assembly (cause : AssemblyError)
  | translation (cause : VmError)
  | treeOutput (path : Path) (cause : DiskError)
  | write (path : Path) (cause : DiskError)
  | unreadableDirectory (path : Path) (cause : DiskError)
  | namelessOutput (path : Path)
  | unsupportedInput (path : Path)
deriving Repr

namespace PipelineError

def message : PipelineError → String
  | fileProcessing cause => s!"File processing failed: {cause.message}"
  | lexicalAnalysis cause => s!"Lexical analysis failed: {cause.message}"
  | syntaxAnalysis cause => s!"Syntax analysis failed: {cause.message}"
  | assembly cause => s!"Assembly failed: {cause.message}"
  | translation cause => s!"VM translation failed: {cause.message}"
  | treeOutput path cause =>
    s!"Tree output failed: Failed to write tree to {path.text}: {cause.message}"
  | write path cause => s!"Failed to write {path.text}: {cause.message}"
  | unreadableDirectory path cause =>
    s!"Pipeline error: Cannot read directory {path.text}: {cause.message}"
  | namelessOutput path => s!"Pipeline error: Cannot name output for {path.text}"
  | unsupportedInput path =>
    s!"Pipeline error: Unsupported input {path.text} (expected .jack, .asm, .vm or a directory)"

def code : PipelineError → Code
  | fileProcessing cause => cause.code
  | lexicalAnalysis cause => cause.code
  | syntaxAnalysis cause => cause.code
  | assembly cause => cause.code
  | translation cause => cause.code
  | treeOutput .. | write .. => .writeFailed
  | unreadableDirectory .. | namelessOutput _ | unsupportedInput _ => .internalError

/-- What was being done when the error arose. -/
def stage : PipelineError → String
  | fileProcessing _ => "file processing"
  | lexicalAnalysis _ => "lexical analysis"
  | syntaxAnalysis _ => "syntax analysis"
  | assembly _ => "assembly"
  | translation _ => "VM translation"
  | treeOutput .. | write .. => "output"
  | unreadableDirectory .. | namelessOutput _ | unsupportedInput _ => "pipeline"

end PipelineError

end NandTools
