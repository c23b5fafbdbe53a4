import NandTools.Log.Journal
import NandTools.Pipeline.Artifact

/-! Inputs turned into outputs on a disk. An output is made first and written after that, so an
input that fails leaves the disk as it was. -/
namespace NandTools

/-- The disk that a run works on, and its log. -/
structure Session where
  disk : Disk
  journal : Journal

namespace Session

def send (session : Session) (event : Event) : Session :=
  { session with journal := session.journal.send event }

def sendAll (session : Session) (events : Array Event) : Session :=
  { session with journal := session.journal.sendAll events }

def enter (session : Session) (path : Path) (id : Nat) : Session :=
  { session with journal := session.journal.enter path id }

def leave (session : Session) : Session := { session with journal := session.journal.leave }

/-- Work under a file of the log. -/
def under {α : Type} (session : Session) (path : Path) (id : Nat) (work : Session → α × Session) :
    α × Session :=
  let (result, session) := work (session.enter path id)
  (result, session.leave)

/-- As `under`, unless the work is under another file already. -/
def underOwn {α : Type} (session : Session) (path : Path) (work : Session → α × Session) :
    α × Session :=
  if session.journal.current?.isSome then work session else session.under path 0 work

/-- Write the output of an artifact. -/
def commit (artifact : Artifact) (session : Session) : Except PipelineError Product × Session :=
  match session.disk.write artifact.product.output artifact.text.toUTF8 with
  | .error cause =>
    let (error, events) := artifact.failure cause
    (.error error, session.sendAll events.toArray)
  | .ok disk =>
    let events := artifact.written :: artifact.remarks ++ [artifact.product.finished]
    (.ok artifact.product, { session with disk }.sendAll events.toArray)

/-- Turn an input of a known kind into its output. -/
def processAs (kind : SourceKind) (preferences : Preferences) (path : Path)
    (output? : Option Path) (session : Session) : Except PipelineError Product × Session :=
  session.underOwn path fun session =>
    let (made, events) := (Artifact.make kind session.disk preferences path output?).result
    let session := session.sendAll events
    match made with
    | .error error => (.error error, session)
    | .ok artifact => commit artifact session

/-- Turn an input into its output in the way that its kind asks for. -/
def process (preferences : Preferences) (path : Path) (output? : Option Path) (session : Session) :
    Except PipelineError Product × Session :=
  match SourceKind.ofPath? session.disk path with
  | some kind => processAs kind preferences path output? session
  | none =>
    let error := PipelineError.unsupportedInput path
    (.error error, session.send (.error error.code "Unsupported input" [("path", path.text)]))

end Session

end NandTools
