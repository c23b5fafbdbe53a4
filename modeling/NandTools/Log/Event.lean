import NandTools.Limits
import NandTools.Log.Code
import NandTools.Source.Span

/-! Events: what the tools report while they work. -/
namespace NandTools

open NandTools.Source

inductive Level where
  | error | warning | info | debug
deriving Repr, DecidableEq, Inhabited

namespace Level

def label : Level → String
  | error => "ERROR"
  | warning => "WARN"
  | info => "INFO"
  | debug => "DEBUG"

def name : Level → String
  | error => "Error"
  | warning => "Warning"
  | info => "Info"
  | debug => "Debug"

def all : List Level := [error, warning, info, debug]

/-- A level by its name or its rank. Letters count in either case. -/
def ofName? (name : String) : Option Level :=
  match name.toLower with
  | "error" | "0" => some error
  | "warning" | "warn" | "1" => some warning
  | "info" | "2" => some info
  | "debug" | "3" => some debug
  | _ => none

/-- Errors come first. -/
def rank : Level → Nat
  | error => 0
  | warning => 1
  | info => 2
  | debug => 3

/-- Whether an event of level `level` passes a threshold. -/
def passes (level threshold : Level) : Bool := level.rank ≤ threshold.rank

end Level

/-- Named details of an event, at most one per name, the newest first. -/
abbrev Details := List (String × String)

namespace Details

def set (details : Details) (name value : String) : Details :=
  (name, value) :: details.filter fun detail => detail.1 != name

def sorted (details : Details) : Details :=
  details.mergeSort fun a b => decide (a.1 ≤ b.1)

end Details

structure Event where
  level : Level
  code : Code
  message : String
  span? : Option Span
  details : Details
deriving Repr, DecidableEq, Inhabited

namespace Event

/-- The longest beginning of a text that takes at most `room` bytes. -/
def clip (room : Nat) : List Char → List Char
  | [] => []
  | c :: rest => if c.utf8Size ≤ room then c :: clip (room - c.utf8Size) rest else []

/-- A message over the limit is cut and marked with three dots. -/
def clipMessage (message : String) : String :=
  if message.utf8ByteSize > Limits.logMessageBytes then
    String.ofList (clip Limits.logMessageBytes message.toList) ++ "..."
  else message

def make (level : Level) (code : Code) (message : String) (details : Details) : Event :=
  ⟨level, code, clipMessage message, none,
    details.foldl (fun set detail => set.set detail.1 detail.2) []⟩

def error (code : Code) (message : String) (details : Details) : Event :=
  make .error code message details

def success (code : Code) (message : String) (details : Details) : Event :=
  make .info code message details

def warning (message : String) (details : Details) : Event :=
  make .warning .warning message details

def info (message : String) (details : Details) : Event := make .info .info message details

def debug (message : String) (details : Details) : Event := make .debug .debug message details

def withSpan (event : Event) (span? : Option Span) : Event := { event with span? }

def withDetail (event : Event) (name value : String) : Event :=
  { event with details := event.details.set name value }

def isError (event : Event) : Bool := event.level == .error

def isWarning (event : Event) : Bool := event.level == .warning

def isInfo (event : Event) : Bool := event.level == .info

/-- One line: level, code, message and place. -/
def line (event : Event) : String :=
  let place := match event.span? with
    | some span => s!" at {span.start.display}"
    | none => ""
  s!"[{event.level.label}] {event.code.text} - {event.message}{place}"

/-- The line and below it what is known of the code, then the details by name. -/
def detailed (event : Event) : String :=
  let code := event.code
  let gravity :=
    if event.isError then
      s!"\n  Recoverable: {code.isRecoverable}\n  Requires halt: {code.requiresHalt}"
    else ""
  let description :=
    if code.description = Code.unknownDescription then "" else s!"\n  Description: {code.description}"
  let action :=
    if code.action = Code.unknownAction then "" else s!"\n  Recommended action: {code.action}"
  let details :=
    if event.details.isEmpty then ""
    else event.details.sorted.foldl (fun text detail => text ++ s!"\n    {detail.1}: {detail.2}")
      "\n  Context:"
  s!"{event.line}\n  Category: {code.category}\n  Severity: {code.severity.text}" ++
    gravity ++ description ++ action ++ details

end Event

end NandTools
