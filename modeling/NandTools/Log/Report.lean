import NandTools.Log.Collector

/-! The report at the end of a run: the errors and warnings of each file, and their totals. -/
namespace NandTools.Collector

private def place (path : Path) (event : Event) : String :=
  match event.span? with
  | some span => s!"\n  --> {path.text}:{span.start.display}"
  | none => ""

/-- The details, less those that say which file the event belongs to. -/
private def notes (event : Event) : String :=
  let shown := event.details.sorted.filter fun detail =>
    detail.1 != "file" && detail.1 != "file_id"
  String.join (shown.map fun detail => s!"  = {detail.1}: {detail.2}\n")

private def headline (word : String) (path : Path) (event : Event) : String :=
  s!"{word}[{event.code.text}]: {event.message}{place path event}\n"

def describeError (path : Path) (event : Event) : String :=
  let code := event.code
  let gravity := s!"  = severity: {code.severity.text}, category: {code.category}\n"
  let help := if code.action = Code.unknownAction then "" else s!"  = help: {code.action}\n"
  headline "error" path event ++ gravity ++ notes event ++ help

def describeWarning (path : Path) (event : Event) : String :=
  headline "warning" path event ++ notes event

/-- Errors come before warnings. A file without either is not mentioned. -/
def describeFile (path : Path) (events : Array Event) : String :=
  let errors := events.toList.filter (·.isError)
  let warnings := events.toList.filter (·.isWarning)
  if errors.isEmpty && warnings.isEmpty then ""
  else
    String.join (errors.map (describeError path)) ++
      String.join (warnings.map (describeWarning path)) ++ "\n"

private def total (what : String) (count : Nat) : String :=
  if count = 0 then "" else s!"Total {what}: {count}\n"

def report (collector : Collector) : String :=
  let files := collector.events.map fun entry => describeFile entry.1 entry.2
  let summary := collector.summary
  String.join files ++ total "errors" summary.errors ++ total "warnings" summary.warnings

end NandTools.Collector
