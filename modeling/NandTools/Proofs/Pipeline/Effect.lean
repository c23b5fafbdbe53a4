import NandTools.Pipeline
import NandTools.Proofs.Disk
import NandTools.Proofs.Pipeline.Artifact

/-! What a run comes to on a disk. An artifact is made before the disk is touched, and its one write
is the last thing that can fail; the log has no part in either. -/
namespace NandTools.Session

/-- The result of writing an artifact, and the disk after that. -/
def written (disk : Disk) (artifact : Artifact) : Except PipelineError Product × Disk :=
  match disk.write artifact.product.output artifact.text.toUTF8 with
  | .error cause => (.error (artifact.failure cause).1, disk)
  | .ok disk => (.ok artifact.product, disk)

/-- What is made is written; what cannot be made leaves the disk as it was. -/
def settled (disk : Disk) : Except PipelineError Artifact → Except PipelineError Product × Disk
  | .error error => (.error error, disk)
  | .ok artifact => written disk artifact

private theorem commit_eq (artifact : Artifact) (session : Session) :
    ((commit artifact session).1, (commit artifact session).2.disk) =
      written session.disk artifact := by
  unfold commit written
  cases session.disk.write artifact.product.output artifact.text.toUTF8 <;> rfl

private def finish (session : Session) (events : Array Event) :
    Except PipelineError Artifact → Except PipelineError Product × Session
  | .error error => (.error error, session.sendAll events)
  | .ok artifact => commit artifact (session.sendAll events)

private theorem finish_eq (session : Session) (events : Array Event)
    (made : Except PipelineError Artifact) :
    ((finish session events made).1, (finish session events made).2.disk) =
      settled session.disk made := by
  cases made with
  | error error => rfl
  | ok artifact => exact commit_eq artifact (session.sendAll events)

theorem processAs_eq (kind : SourceKind) (preferences : Preferences) (path : Path)
    (output? : Option Path) (session : Session) :
    ((processAs kind preferences path output? session).1,
      (processAs kind preferences path output? session).2.disk) =
      settled session.disk
        (Artifact.make kind session.disk preferences path output?).value := by
  unfold processAs underOwn under
  split
  · exact finish_eq session _ _
  · exact finish_eq (session.enter path 0) _ _

section Settled

variable {disk disk' : Disk} {made : Except PipelineError Artifact}

theorem of_settled_ok {product : Product} (ended : settled disk made = (.ok product, disk')) :
    ∃ artifact place, made = .ok artifact ∧ artifact.product = product ∧
      disk.target product.output = .ok place ∧
      disk' = disk.put place (.file artifact.text.toUTF8) := by
  unfold settled written at ended
  split at ended
  · cases ended
  · next artifact =>
    split at ended
    · cases ended
    · next wrote =>
      cases ended
      obtain ⟨place, found, put⟩ := Disk.of_write wrote
      exact ⟨artifact, place, rfl, rfl, found, put⟩

end Settled

/-- A disk with a class that declares a variable twice. -/
private def duplicate : Disk := ⟨[], [(["A.jack"], .file "class A { field int x, x; }".toUTF8)]⟩

private def indented : Preferences where
  files := ⟨true, false⟩
  scan := ⟨false, false⟩
  tree := ⟨.xml, 2, false⟩
  translation := ⟨true, false⟩
  log := ⟨false, false, .info, false⟩

end NandTools.Session
