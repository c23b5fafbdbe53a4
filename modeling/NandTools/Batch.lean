import NandTools.Batch.Discovery
import NandTools.Batch.Outcomes
import NandTools.Pipeline
import NandTools.Text.Fixed

/-! All classes of a directory parsed in one run. -/
namespace NandTools

structure BatchOptions where
  threads : Nat
  recursive : Bool
  maxFiles : Nat
  failFast : Bool
deriving Repr, DecidableEq

/-- The files that were found, and what became of those that were processed. -/
structure BatchResults where
  discovered : List Path
  outcomes : Outcomes PipelineError Product
deriving Repr

namespace BatchResults

def processed (results : BatchResults) : Nat := results.outcomes.count

def successCount (results : BatchResults) : Nat := results.outcomes.successes.length

def failureCount (results : BatchResults) : Nat := results.outcomes.failures.length

/-- The share of the processed files that succeeded. -/
def successRate (results : BatchResults) : Float :=
  if results.processed = 0 then 0.0
  else Float.ofNat results.successCount / Float.ofNat results.processed

/-- The counts in one line. A batch is taken to need no time. -/
def summary (results : BatchResults) : String :=
  let percent := Text.fixed 1 (results.successRate * 100.0)
  s!"Batch processing completed: {results.processed} files processed, " ++
    s!"{results.successCount} successful ({percent}%), {results.failureCount} failed, " ++
    "0.00s total"

def finished (results : BatchResults) (threads : Nat) : Event :=
  .success .batchComplete "Batch processing completed"
    [("files_processed", toString results.processed),
      ("successful", toString results.successCount), ("failed", toString results.failureCount),
      ("threads_used", toString threads), ("duration_ms", "0.00")]

end BatchResults

namespace Batch

def clampThreads (threads : Nat) : Nat := max 1 (min threads Limits.batchThreads)

/-- Parse one class under its own number in the log. -/
def processFile (preferences : Preferences) (path : Path) (id : Nat) (session : Session) :
    Except PipelineError Product × Session :=
  session.under path id fun session =>
    match Session.processAs .jack preferences path none session with
    | (.ok product, session) => (.ok product, session)
    | (.error error, session) =>
      (.error error, session.send (.error error.code "File processing failed"
        [("file", path.text), ("stage", error.stage)]))

/-- Find the files and hand them to `processAll`. -/
def withFiles (options : BatchOptions) (threads : Nat) (directory : Path)
    (processAll : List Path → Session → Outcomes PipelineError Product × Session)
    (session : Session) : Except BatchError BatchResults × Session :=
  let (found, events) :=
    (discover session.disk directory options.recursive options.maxFiles).result
  let session := session.sendAll events
  match found with
  | .error error => (.error error, session)
  | .ok files =>
    let (outcomes, session) := processAll files session
    let session :=
      if options.failFast && outcomes.hasFailures then
        session.send (.warning "Fail-fast mode enabled, stopping batch processing" [])
      else session
    let results : BatchResults := ⟨files, outcomes⟩
    (.ok results, session.send (results.finished threads))

def sequential (options : BatchOptions) (preferences : Preferences) (directory : Path)
    (session : Session) : Except BatchError BatchResults × Session :=
  let session := session.send
    (.info "Starting sequential batch processing" [("directory", directory.text)])
  session |> withFiles options 1 directory fun files session =>
    Outcomes.sequential options.failFast (processFile preferences) session files

def parallel (options : BatchOptions) (preferences : Preferences) (directory : Path)
    (session : Session) : Except BatchError BatchResults × Session :=
  let threads := clampThreads options.threads
  let session := session.send (.info "Starting parallel batch processing"
    [("directory", directory.text), ("max_threads", toString threads)])
  session |> withFiles options threads directory fun files session =>
    let session := session.send (.debug "Parallel processing configuration"
      [("total_files", toString files.length),
        ("chunk_size", toString (Outcomes.chunkSize files.length threads)),
        ("threads", toString threads)])
    Outcomes.parallel options.failFast threads (processFile preferences) session files

/-- One thread works through the files in their order; several share them. -/
def run (options : BatchOptions) (preferences : Preferences) (directory : Path)
    (session : Session) : Except BatchError BatchResults × Session :=
  if options.threads ≤ 1 then sequential options preferences directory session
  else parallel options preferences directory session

end Batch

end NandTools
