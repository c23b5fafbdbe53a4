import NandTools.Preferences
import NandTools.Token.Stream

/-! Whole texts read into a token stream, with counts of what was read. -/
namespace NandTools

open NandTools.Source

structure TokenMetrics where
  total : Nat := 0
  keywords : Nat := 0
  signs : Nat := 0
  identifiers : Nat := 0
  integers : Nat := 0
  strings : Nat := 0
  longestString : Nat := 0
  comments : Nat := 0
  longestComment : Nat := 0
deriving Repr, DecidableEq, Inhabited

namespace TokenMetrics

/-- Count one token. Without `countKinds` only the total is kept. -/
def record (preferences : ScanPreferences) (metrics : TokenMetrics) (token : Token) :
    TokenMetrics :=
  let metrics := { metrics with total := metrics.total + 1 }
  if preferences.countKinds then
    match token.kind with
    | .keyword _ => { metrics with keywords := metrics.keywords + 1 }
    | .sign _ => { metrics with signs := metrics.signs + 1 }
    | .identifier => { metrics with identifiers := metrics.identifiers + 1 }
    | .integer => { metrics with integers := metrics.integers + 1 }
    | .string =>
      { metrics with
        strings := metrics.strings + 1
        longestString := max metrics.longestString token.literal.utf8ByteSize }
    | .endOfInput => metrics
  else metrics

/-- What is reported of a token just recorded. -/
def events (preferences : ScanPreferences) (metrics : TokenMetrics) (token : Token) : List Event :=
  if preferences.countKinds && preferences.reportStrings && token.kind == .string then
    [.debug "String constant processed"
      [("length", toString token.literal.utf8ByteSize),
        ("max_so_far", toString metrics.longestString)]]
  else []

end TokenMetrics

/-- All tokens before the end of a text or the first error, then what ended them. -/
structure ScannedText where
  tokens : Array (Located Token)
  ending : Except LexicalError (Located Token)
  scanner : Scanner

namespace Scanner

/-- Read on until the text ends or an error stops the scanner. -/
def drain (s : Scanner) (tokens : Array (Located Token)) : ScannedText :=
  match read : s.next with
  | (.error e, s') => ⟨tokens, .error e, s'⟩
  | (.ok token, s') =>
    if more : token.value.isEnd = true then ⟨tokens, .ok token, s'⟩
    else
      have : s'.rest.length < s.rest.length := by
        have drawn : s.next.1 = .ok token := by rw [read]
        have shorter := length_next_lt drawn (by simpa using more)
        rwa [read] at shorter
      drain s' (tokens.push token)
termination_by s.rest.length

end Scanner

structure Tokenization where
  result : Except LexicalError TokenStream
  metrics : TokenMetrics
  events : List Event

/-- Comments are counted only when the whole text could be read. -/
def tokenize (preferences : ScanPreferences) (text : List Char) : Tokenization :=
  let scanned := (Scanner.ofText text).drain #[]
  let (metrics, reports) := scanned.tokens.foldl (fun (metrics, reports) token =>
    let metrics := metrics.record preferences token.value
    (metrics, metrics.events preferences token.value ++ reports)) (({} : TokenMetrics), [])
  match scanned.ending with
  | .error e =>
    let span := match e.place? with
      | some (line, column) => Span.single ⟨0, line, column⟩
      | none => Span.dummy
    let report := Event.error e.code e.message
      [("tokens_before_error", toString scanned.tokens.size)]
    ⟨.error e, metrics, (report.withSpan span :: reports).reverse⟩
  | .ok last =>
    let metrics := { metrics with
      comments := scanned.scanner.comments, longestComment := scanned.scanner.longestComment }
    let summary := Event.debug "Token processing summary"
      [("total_tokens", toString metrics.total), ("keywords", toString metrics.keywords),
        ("identifiers", toString metrics.identifiers), ("symbols", toString metrics.signs)]
    ⟨.ok (.ofTokens (scanned.tokens.push last) none), metrics, (summary :: reports).reverse⟩

end NandTools
