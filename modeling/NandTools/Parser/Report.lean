import NandTools.Parser
import NandTools.Token.Stream

/-! Classes read from a token stream, with a report of how it went. -/
namespace NandTools

open NandTools.Source

/-- The error with its source line, where place and text are known. -/
def SyntaxError.describe (e : SyntaxError) (index? : Option LineIndex) : String :=
  match e.span?, index? with
  | some span, some index => index.describe span e.message
  | _, _ => e.message

def parseStream (stream : TokenStream) : Except SyntaxError Tree × List Event :=
  let start := Event.debug "Starting syntax analysis" [("tokens", toString stream.length)]
  let (result, p) := (Parser.ofSupply stream Limits.parseDepth).parseClass
  let ending := match result with
    | .ok tree =>
      Event.success .parsed "Syntax analysis completed successfully"
        [("class", tree.className?.getD "?"), ("terminals", toString tree.tokens.length)]
    | .error e =>
      (Event.error e.code "Syntax analysis failed"
        [("error", e.describe stream.index?)]).withSpan e.span?
  (result, start :: p.events ++ [ending])

end NandTools
