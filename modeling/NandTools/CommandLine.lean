import NandTools.CommandLine.Options
import NandTools.CommandLine.Screen
import NandTools.Log.Report
import NandTools.Preferences.Environment
import NandTools.Preferences.Toml
import NandTools.Text.Quoted

/-! The command as a function: from its words, the environment and a disk to what it shows, its
exit code and the disk after it. -/
namespace NandTools

namespace CommandLine

structure Request where
  program : String
  arguments : List String
  environment : Environment
  disk : Disk
  /-- how many threads the machine runs at once -/
  processors : Nat
  /-- the time that is written into structured events -/
  stamp : String

structure Outcome where
  exitCode : Nat
  stdout : String
  stderr : String
  disk : Disk

inductive ConfigError where
  | unreadable (path : Path) (reason : String)
  | malformed (path : Path)
deriving Repr, DecidableEq

def ConfigError.describe : ConfigError → String
  | unreadable path reason =>
    s!"Io \x7b path: {Text.quoted path.text}, message: {Text.quoted reason} \x7d"
  | malformed path =>
    let reason := Text.quoted "TOML parse error"
    s!"Parse \x7b path: {Text.quoted path.text}, message: {reason} \x7d"

/-- Read preferences from a file, over those of the environment. -/
def readConfig (disk : Disk) (defaults : Preferences) (path : Path) :
    Except ConfigError Preferences :=
  match disk.read path with
  | .error cause => .error (.unreadable path cause.message)
  | .ok bytes =>
    match String.fromUTF8? bytes with
    | none => .error (.unreadable path "stream did not contain valid UTF-8")
    | some text =>
      match defaults.ofToml? text.toList with
      | some preferences => .ok preferences
      | none => .error (.malformed path)

/-- The preferences of a run. A format on the command line goes before all others. -/
def preferences (request : Request) (options : Options) : Except ConfigError Preferences := do
  let defaults := Preferences.ofEnvironment request.environment
  let chosen ← match options.config? with
    | some path => readConfig request.disk defaults path
    | none => .ok defaults
  match options.format? with
  | some format => return { chosen with tree := { chosen.tree with format } }
  | none => return chosen

/-- The report at the end of a run, if it is wanted. -/
def finalReport (preferences : Preferences) (session : Session) : String :=
  if preferences.log.summary then session.journal.collector.report else ""

/-- Turn one input into its output. -/
def runSingle (request : Request) (preferences : Preferences) (options : Options)
    (session : Session) : Outcome :=
  let input := options.input
  let (result, session) := session.process preferences input options.output?
  let events := shownEvents preferences.log request.stamp session.journal.events.toList
  let report := finalReport preferences session
  let start := s!"Processing: {input.text}\n"
  match result with
  | .ok product =>
    ⟨0, start ++ s!"Wrote {product.output.text} ({product.describe})\n", events ++ report,
      session.disk⟩
  | .error error =>
    let failure := s!"\nFAILED during {error.stage}: {error.message}\n"
    ⟨1, start, events ++ failure ++ report, session.disk⟩

/-- How a batch is to be run. Without a count of threads it takes what the machine offers. -/
def batchOptions (request : Request) (options : Options) : BatchOptions where
  threads := Batch.clampThreads (options.threads?.getD request.processors)
  recursive := options.recursive
  maxFiles := Limits.batchFiles
  failFast := options.failFast

/-- Parse the classes of a directory. -/
def runBatch (request : Request) (preferences : Preferences) (options : Options)
    (session : Session) : Outcome :=
  let batch := batchOptions request options
  let directory := options.input
  let shown := shownEvents preferences.log request.stamp
  let before := session.journal.events.size
  let ignored :=
    if options.output?.isSome then "Warning: --output is ignored for Jack directories\n" else ""
  let (result, after) := Batch.run batch preferences directory session
  let events := shown session.journal.events.toList ++ ignored ++
    shown (after.journal.events.toList.drop before)
  let report := finalReport preferences after
  let start := textOfLines
    [ s!"Starting batch processing: {directory.text}",
      s!"Configuration: {batch.threads} threads, recursive={batch.recursive}, " ++
        s!"fail_fast={batch.failFast}" ]
  match result with
  | .ok results =>
    let lines := if options.quiet || batch.threads > 1 then "" else progress results
    ⟨if results.failureCount > 0 then 1 else 0, start ++ lines ++ batchResults results,
      events ++ report, after.disk⟩
  | .error error =>
    ⟨1, start, events ++ s!"Batch processing failed: {error.message}\n" ++ report, after.disk⟩

/-- Directories with classes are batches; any other input that is there is taken by itself. -/
def runInput (request : Request) (preferences : Preferences) (options : Options)
    (session : Session) : Outcome :=
  let input := options.input
  if request.disk.isDirectory input && Batch.holdsClasses request.disk input then
    runBatch request preferences options session
  else if request.disk.has input then runSingle request preferences options session
  else
    let events := shownEvents preferences.log request.stamp session.journal.events.toList
    ⟨1, "", events ++ s!"Error: Input not found: {input.text}\n", session.disk⟩

def runOptions (request : Request) (options : Options) : Outcome :=
  match preferences request options with
  | .error error => ⟨1, "", s!"Error: {error.describe}\n", request.disk⟩
  | .ok preferences =>
    match Journal.open? none with
    | .error error => ⟨1, "", s!"Error: {error.message}\n", request.disk⟩
    | .ok journal => runInput request preferences options ⟨request.disk, journal⟩

def run (request : Request) : Outcome :=
  match request.arguments with
  | [] => ⟨1, "", usage request.program, request.disk⟩
  | "--help" :: _ => ⟨0, help request.program, "", request.disk⟩
  | input :: rest =>
    let (unknown, result) := Options.read { input := ⟨input⟩ } rest
    let warnings := textOfLines (unknown.map fun word => s!"Warning: Unknown option '{word}'")
    match result with
    | .error error => ⟨2, "", warnings ++ s!"Error: {error.message}\n", request.disk⟩
    | .ok options =>
      let outcome := runOptions request options
      { outcome with stderr := warnings ++ outcome.stderr }

end CommandLine

end NandTools
