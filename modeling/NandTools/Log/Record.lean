import NandTools.JsonValue
import NandTools.Log.Event

/-! Events as records of a structured log, one JSON text each, with the members in the order of
their names. -/
namespace NandTools.Event

open NandTools.Source

private def spanRecord (span : Span) : JsonValue :=
  .object [("end_column", .nat span.stop.column), ("end_line", .nat span.stop.line),
    ("start_column", .nat span.start.column), ("start_line", .nat span.start.line)]

private def adviceRecord (code : Code) : JsonValue :=
  .object [("description", .string code.description),
    ("recommended_action", .string code.action), ("recoverable", .bool code.isRecoverable),
    ("requires_halt", .bool code.requiresHalt)]

/-- What is known of the code stands in the records of errors only. `stamp` is the time. -/
def record (event : Event) (stamp : String) : String :=
  let code := event.code
  let details := event.details.sorted.map fun detail => (detail.1, JsonValue.string detail.2)
  let context := if details.isEmpty then [] else [("context", .object details)]
  let advice := if event.isError then [("error_metadata", adviceRecord code)] else []
  let span := match event.span? with
    | some span => [("span", spanRecord span)]
    | none => []
  JsonValue.compact <| .object <|
    [("category", .string code.category), ("code", .string code.text)] ++ context ++ advice ++
      [("level", .string event.level.label), ("message", .string event.message),
        ("severity", .string code.severity.text)] ++ span ++ [("timestamp", .string stamp)]

end NandTools.Event
