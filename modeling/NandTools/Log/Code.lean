/-! Codes under which events are reported, and the catalogue of error codes: what each means,
how grave it is and what to do about it. -/
namespace NandTools

structure Code where
  text : String
deriving Repr, DecidableEq, Inhabited

namespace Code

def internalError : Code := ⟨"ERR001"⟩
def initializationFailure : Code := ⟨"ERR002"⟩
def configurationError : Code := ⟨"ERR003"⟩

def fileNotFound : Code := ⟨"E005"⟩
def invalidExtension : Code := ⟨"E006"⟩
def fileTooLarge : Code := ⟨"E007"⟩
def emptyFile : Code := ⟨"E008"⟩
def permissionDenied : Code := ⟨"E009"⟩
def invalidEncoding : Code := ⟨"E010"⟩
def inputOutput : Code := ⟨"E011"⟩
def invalidPath : Code := ⟨"E012"⟩
def tooManyLines : Code := ⟨"E013"⟩

def invalidCharacter : Code := ⟨"E020"⟩
def unterminatedString : Code := ⟨"E021"⟩
def invalidNumber : Code := ⟨"E022"⟩
def identifierTooLong : Code := ⟨"E023"⟩
def stringTooLarge : Code := ⟨"E024"⟩
def unterminatedComment : Code := ⟨"E025"⟩
def commentTooLong : Code := ⟨"E026"⟩
def tooManyTokens : Code := ⟨"E027"⟩

def emptyInput : Code := ⟨"E040"⟩
def incompleteRule : Code := ⟨"E041"⟩
def unexpectedToken : Code := ⟨"E042"⟩
def trailingInput : Code := ⟨"E043"⟩
def parseDepth : Code := ⟨"E044"⟩
def lexicalFailure : Code := ⟨"E045"⟩
def misplacedRule : Code := ⟨"E046"⟩

def duplicateSymbol : Code := ⟨"E060"⟩
def tooManySymbols : Code := ⟨"E061"⟩
def malformedDeclaration : Code := ⟨"E062"⟩

def invalidComp : Code := ⟨"E080"⟩
def invalidDest : Code := ⟨"E081"⟩
def invalidJump : Code := ⟨"E082"⟩
def constantOutOfRange : Code := ⟨"E083"⟩
def duplicateLabel : Code := ⟨"E084"⟩
def malformedLabel : Code := ⟨"E085"⟩
def romOverflow : Code := ⟨"E086"⟩
def ramExhausted : Code := ⟨"E087"⟩
def invalidSymbol : Code := ⟨"E088"⟩

def unknownCommand : Code := ⟨"E100"⟩
def malformedCommand : Code := ⟨"E101"⟩
def invalidSegment : Code := ⟨"E102"⟩
def popToConstant : Code := ⟨"E103"⟩
def segmentIndexOutOfRange : Code := ⟨"E104"⟩
def invalidIndex : Code := ⟨"E105"⟩
def tooManyCommands : Code := ⟨"E106"⟩
def noVmFiles : Code := ⟨"E107"⟩

def serializationFailed : Code := ⟨"E120"⟩
def writeFailed : Code := ⟨"E121"⟩

def initialized : Code := ⟨"I001"⟩
def fileLoaded : Code := ⟨"I002"⟩
def tokenized : Code := ⟨"I003"⟩
def parsed : Code := ⟨"I004"⟩
def symbolsCollected : Code := ⟨"I005"⟩
def assembled : Code := ⟨"I006"⟩
def translated : Code := ⟨"I007"⟩
def outputWritten : Code := ⟨"I008"⟩
def batchComplete : Code := ⟨"I009"⟩

def info : Code := ⟨"I000"⟩
def warning : Code := ⟨"W000"⟩
def debug : Code := ⟨"D000"⟩

end Code

inductive Severity where
  | critical | high | medium | low
deriving Repr, DecidableEq, Inhabited

def Severity.text : Severity → String
  | critical => "Critical"
  | high => "High"
  | medium => "Medium"
  | low => "Low"

structure CodeEntry where
  code : Code
  category : String
  severity : Severity
  recoverable : Bool
  requiresHalt : Bool
  description : String
  action : String
deriving Repr, DecidableEq

namespace CodeEntry

/-- An error after which the run has to stop. -/
private def halting (severity : Severity) (category : String) (code : Code)
    (description action : String) : CodeEntry :=
  ⟨code, category, severity, false, true, description, action⟩

private def high := halting .high
private def medium := halting .medium
private def critical := halting .critical

def catalogue : List CodeEntry :=
  [ critical "System" .internalError "Critical internal error"
      "File a bug report with the input that triggered it",
    critical "System" .initializationFailure "Initialization failure"
      "Check logging configuration and environment variables",
    high "System" .configurationError "Invalid runtime configuration"
      "Fix the runtime configuration file or HACK_* variables",
    high "FileProcessing" .fileNotFound "Input file not found" "Verify the file path",
    ⟨.invalidExtension, "FileProcessing", .medium, true, false, "Unexpected file extension",
      "Use .jack, .vm or .asm inputs"⟩,
    high "FileProcessing" .fileTooLarge "File exceeds the configured size limit"
      "Split the input or raise max_file_size in the build profile",
    medium "FileProcessing" .emptyFile "Input file is empty" "Provide a non-empty source file",
    high "FileProcessing" .permissionDenied "Permission denied" "Check file permissions",
    high "FileProcessing" .invalidEncoding "File is not valid UTF-8" "Re-encode the file as UTF-8",
    high "FileProcessing" .inputOutput "I/O error" "Check the file system and retry",
    high "FileProcessing" .invalidPath "Invalid path"
      "Pass a path to an existing file or directory",
    high "FileProcessing" .tooManyLines "File exceeds the configured line limit"
      "Split the input or raise max_line_count_for_analysis",
    high "Lexical" .invalidCharacter "Invalid character in source"
      "Remove the character or move it into a string or comment",
    high "Lexical" .unterminatedString "Unterminated string constant"
      "Close the string with a double quote on the same line",
    high "Lexical" .invalidNumber "Integer constant out of range"
      "Integer constants must be between 0 and 32767",
    medium "Lexical" .identifierTooLong "Identifier too long" "Shorten the identifier",
    medium "Lexical" .stringTooLarge "String constant too large" "Shorten the string constant",
    high "Lexical" .unterminatedComment "Unterminated block comment" "Close the comment with */",
    medium "Lexical" .commentTooLong "Comment too long" "Shorten the comment",
    high "Lexical" .tooManyTokens "Token limit exceeded" "Split the class into smaller files",
    medium "Syntax" .emptyInput "No tokens to parse" "Provide a class declaration",
    high "Syntax" .incompleteRule "Grammar rule ended before its required parts"
      "Complete the construct reported at the given location",
    high "Syntax" .unexpectedToken "Unexpected token" "Check the syntax at the given location",
    high "Syntax" .trailingInput "Input continues after the class declaration"
      "Each file holds exactly one class",
    critical "Syntax" .parseDepth "Maximum nesting depth exceeded"
      "Reduce expression or statement nesting",
    high "Syntax" .lexicalFailure "Tokenization failed during parsing"
      "Fix the lexical error reported at the given location",
    high "Syntax" .misplacedRule "Construct is not allowed at this position"
      "Move the declaration or statement to where the grammar expects it",
    high "Symbols" .duplicateSymbol "Symbol declared twice in the same scope"
      "Rename or remove one declaration",
    high "Symbols" .tooManySymbols "Scope exceeds the configured symbol limit"
      "Reduce the number of declarations",
    high "Symbols" .malformedDeclaration "Declaration node is missing its type or name"
      "Re-parse the class; the tree is malformed",
    high "Assembler" .invalidComp "Unknown computation mnemonic"
      "Use one of the 28 Hack computations",
    high "Assembler" .invalidDest "Unknown destination mnemonic"
      "Use a combination of A, M and D in AMD order",
    high "Assembler" .invalidJump "Unknown jump mnemonic"
      "Use JGT, JEQ, JGE, JLT, JNE, JLE or JMP",
    high "Assembler" .constantOutOfRange "Constant does not fit in 15 bits"
      "A-instruction constants must be between 0 and 32767",
    high "Assembler" .duplicateLabel "Label defined twice" "Rename one of the labels",
    high "Assembler" .malformedLabel "Malformed label declaration"
      "Labels are written as (NAME) on their own line",
    critical "Assembler" .romOverflow "Program does not fit in ROM" "Reduce program size",
    critical "Assembler" .ramExhausted "No free RAM for new variables"
      "Reduce the number of variables",
    high "Assembler" .invalidSymbol "Invalid symbol name" "Symbols may not start with a digit",
    high "VmTranslator" .unknownCommand "Unknown VM command" "Check the command spelling",
    high "VmTranslator" .malformedCommand "Wrong number of arguments for VM command"
      "Check the command arguments",
    high "VmTranslator" .invalidSegment "Unknown memory segment"
      "Use local, argument, this, that, constant, static, temp or pointer",
    high "VmTranslator" .popToConstant "Cannot pop into the constant segment"
      "Pop into a writable segment",
    high "VmTranslator" .segmentIndexOutOfRange "Segment index out of range"
      "pointer takes 0 or 1, temp takes 0 to 7",
    high "VmTranslator" .invalidIndex "Invalid numeric argument"
      "Indices and counts must be non-negative integers",
    high "VmTranslator" .tooManyCommands "Too many VM commands in one file" "Split the file",
    medium "VmTranslator" .noVmFiles "Directory contains no .vm files"
      "Point the translator at a directory with .vm files",
    high "Output" .serializationFailed "Failed to serialize output" "File a bug report",
    high "Output" .writeFailed "Failed to write output file"
      "Check that the output directory is writable" ]

end CodeEntry

namespace Code

def entry? (code : Code) : Option CodeEntry := CodeEntry.catalogue.find? (·.code == code)

/-- A code outside the catalogue counts as medium. -/
def severity (code : Code) : Severity := (code.entry?.map (·.severity)).getD .medium

def isRecoverable (code : Code) : Bool := (code.entry?.map (·.recoverable)).getD false

def requiresHalt (code : Code) : Bool := (code.entry?.map (·.requiresHalt)).getD false

def unknownDescription : String := "Unknown error"

def unknownAction : String := "No specific action available"

def description (code : Code) : String :=
  (code.entry?.map (·.description)).getD unknownDescription

def action (code : Code) : String := (code.entry?.map (·.action)).getD unknownAction

/-- Codes outside the catalogue are classed by their first letter. -/
def category (code : Code) : String :=
  match code.entry? with
  | some entry => entry.category
  | none =>
    match code.text.toList with
    | 'I' :: _ => "Success"
    | 'W' :: _ => "Warning"
    | 'D' :: _ => "Debug"
    | _ => "Unknown"

end Code

end NandTools
