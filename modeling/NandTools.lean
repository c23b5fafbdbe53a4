import NandTools.Log.Buffer
import NandTools.Main
import NandTools.Preferences.Json
import NandTools.Proofs.Assembly.Allocation
import NandTools.Proofs.Assembly.Language
import NandTools.Proofs.Assembly.Width
import NandTools.Proofs.Batch.Trees
import NandTools.Proofs.CommandLine.Dispatch
import NandTools.Proofs.Log.Clipping
import NandTools.Proofs.Log.Report
import NandTools.Proofs.Matcher.Conduct
import NandTools.Proofs.Matcher.Words
import NandTools.Proofs.Parser.Classification
import NandTools.Proofs.Parser.Closing
import NandTools.Proofs.Parser.Diagnostics
import NandTools.Proofs.Parser.Discipline
import NandTools.Proofs.Pipeline.DirectoryOutput
import NandTools.Proofs.Symbols.Collection
import NandTools.Proofs.Symbols.Scope
import NandTools.Proofs.Token.Fault
import NandTools.Proofs.Token.Tiling
import NandTools.Proofs.Tree.Markup
import NandTools.Proofs.Vm.Annotation
import NandTools.Proofs.Vm.Atomicity
import NandTools.Proofs.Vm.Calls
import NandTools.Proofs.Vm.Order
import NandTools.Proofs.Vm.Spelling
import NandTools.Proofs.Vm.Variables
