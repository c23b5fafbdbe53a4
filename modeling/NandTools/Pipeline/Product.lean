import NandTools.Assembly.Program
import NandTools.Path
import NandTools.Vm.Translation

/-! What an input was turned into. -/
namespace NandTools

inductive ProductSummary where
  /-- A class. `issue?` says why its variables could not be collected. -/
  | parse (className : String) (tokens symbols subroutines : Nat) (issue? : Option String)
  | assembly (stats : AssemblyStats)
  | translation (stats : TranslationStats)
deriving Repr, DecidableEq

namespace ProductSummary

/-- A summary in one line. -/
def describe : ProductSummary → String
  | parse className tokens symbols _ none =>
    s!"class {className}: {tokens} tokens, {symbols} symbols"
  | parse className tokens _ _ (some issue) =>
    s!"class {className}: {tokens} tokens, symbols skipped ({issue})"
  | assembly stats =>
    s!"{stats.instructions} instructions, {stats.labelCount} labels, {stats.variableCount} variables"
  | translation stats =>
    s!"{stats.modules} modules, {stats.commands} commands, {stats.functions} functions"

end ProductSummary

structure Product where
  input : Path
  output : Path
  inputBytes : Nat
  summary : ProductSummary
deriving Repr, DecidableEq

namespace Product

def describe (product : Product) : String := product.summary.describe

/-- What is reported of a finished product. Making it is taken to need no time. -/
def finished (product : Product) : Event :=
  .success .fileLoaded "Pipeline completed"
    [("input", product.input.text), ("output", product.output.text),
      ("summary", product.describe), ("duration_ms", "0.00"), ("bytes_per_sec", "0")]

end Product

end NandTools
