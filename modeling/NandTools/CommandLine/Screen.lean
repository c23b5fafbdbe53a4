import NandTools.Batch
import NandTools.Log.Record

/-! What the command shows: its help, the events of a run, and the results of a batch. -/
namespace NandTools.CommandLine

/-- Every line with its line feed. -/
def textOfLines (lines : List String) : String := String.join (lines.map (· ++ "\n"))

def usage (program : String) : String :=
  textOfLines
    [ s!"Usage: {program} <input.jack|input.asm|input.vm|directory> [options]",
      s!"       {program} --help" ]

def help (program : String) : String :=
  textOfLines
    [ "Hack toolchain v0.1.0",
      "Jack parser, VM translator and Hack assembler",
      "",
      "USAGE:",
      s!"    {program} <file.jack>        # Parse to a .xml or .json tree",
      s!"    {program} <file.asm>         # Assemble to .hack",
      s!"    {program} <file.vm>          # Translate to .asm",
      s!"    {program} <directory>        # .vm files: translate to one .asm",
      "                               # .jack files: parse each in a batch",
      "",
      "OPTIONS:",
      "    --help              Show this help message",
      "    --output PATH       Write output to PATH (single inputs only)",
      "    --format xml|json   Parse tree format (default: xml)",
      "    --config FILE       Load runtime preferences from a TOML file",
      "    --threads N         Worker threads for Jack batches",
      "    --sequential        Process Jack batches on one thread",
      "    --recursive         Search subdirectories for .jack files",
      "    --fail-fast         Stop a batch on the first failure",
      "    --quiet             Suppress batch progress lines",
      "",
      "ENVIRONMENT:",
      "    HACK_TREE_FORMAT, HACK_TREE_INDENT, HACK_VM_BOOTSTRAP, HACK_VM_ANNOTATE,",
      "    HACK_LOGGING_MIN_LEVEL, HACK_LOGGING_USE_STRUCTURED",
      "",
      "BUILD:",
      "    Generated from config/development.toml" ]

/-- The events that the preferences let through, a line for each. `stamp` is their time. -/
def shownEvents (preferences : LogPreferences) (stamp : String) (events : List Event) : String :=
  if preferences.console then
    textOfLines <| (events.filter (·.level.passes preferences.threshold)).map fun event =>
      if preferences.structured then event.record stamp else event.line
  else ""

/-- A line for each file that a batch on one thread began with. -/
def progress (results : BatchResults) : String :=
  let count := results.discovered.length
  textOfLines <| (results.discovered.take results.processed).zipIdx.map fun (path, index) =>
    s!"Processing file {index + 1} of {count}: {path.text}"

/-- Up to ten successes are listed, more are only counted. -/
def batchResults (results : BatchResults) : String :=
  let failed :=
    if results.failureCount = 0 then []
    else ["", "Failed Files:"] ++ results.outcomes.failures.map fun (path, error) =>
      s!"  {path.text}: {error.stage} error"
  let successful :=
    if results.successCount = 0 then []
    else if results.successCount ≤ 10 then
      ["", "Successful Files:"] ++ results.outcomes.successes.map fun (path, product) =>
        s!"  {path.text}: {product.describe}"
    else ["", s!"{results.successCount} files parsed successfully"]
  textOfLines <|
    ["", results.summary, s!"  Files discovered: {results.discovered.length}"] ++ failed ++
      successful

end NandTools.CommandLine
