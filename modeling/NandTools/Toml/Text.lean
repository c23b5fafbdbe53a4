import NandTools.Toml

/-! Quoted texts in TOML: within one line or over several, with escapes or without. A reading
gives the text and what follows it. -/
namespace NandTools.Toml

def isBlank (c : Char) : Bool := c == ' ' || c == '\t'

/-- Characters that may stand for themselves. -/
def isPlain (c : Char) : Bool := c == '\t' || (0x20 ≤ c.toNat && c.toNat != 0x7F)

private def hexValue (c : Char) : Option Nat :=
  if c.isDigit then some (c.toNat - '0'.toNat)
  else if ('a' ≤ c && c ≤ 'f') || ('A' ≤ c && c ≤ 'F') then
    some (c.toLower.toNat - 'a'.toNat + 10)
  else none

/-- The character with this hexadecimal number, if there is one. -/
def numberedChar (digits : List Char) : Option Char := do
  let value ← digits.foldlM (fun value c => do return 16 * value + (← hexValue c)) 0
  if value.isValidChar then some (Char.ofNat value) else none

def escapedChar : Char → Option Char
  | 'b' => some '\x08'
  | 't' => some '\t'
  | 'n' => some '\n'
  | 'f' => some '\x0c'
  | 'r' => some '\r'
  | '"' => some '"'
  | '\\' => some '\\'
  | _ => none

/-- The rest of a text in double quotes. -/
def quotedText (seen : List Char) : List Char → Option (String × List Char)
  | '"' :: rest => some (String.ofList seen.reverse, rest)
  | '\\' :: 'u' :: a :: b :: c :: d :: rest => do
    quotedText ((← numberedChar [a, b, c, d]) :: seen) rest
  | '\\' :: 'U' :: a :: b :: c :: d :: e :: f :: g :: h :: rest => do
    quotedText ((← numberedChar [a, b, c, d, e, f, g, h]) :: seen) rest
  | '\\' :: c :: rest => do quotedText ((← escapedChar c) :: seen) rest
  | c :: rest => if c != '\\' && isPlain c then quotedText (c :: seen) rest else none
  | [] => none

/-- The rest of a text in single quotes, which knows no escapes. -/
def literalText (seen : List Char) : List Char → Option (String × List Char)
  | '\'' :: rest => some (String.ofList seen.reverse, rest)
  | c :: rest => if isPlain c then literalText (c :: seen) rest else none
  | [] => none

/-- Whether only blanks stand before the end of the line. -/
def endsLine (rest : List Char) : Bool :=
  match rest.dropWhile isBlank with
  | '\n' :: _ | '\r' :: '\n' :: _ => true
  | _ => false

/-- Up to two quotes directly before the closing ones belong to the text. -/
def closing (mark : Char) (seen rest : List Char) : Option (String × List Char) :=
  let inner := (rest.takeWhile (· == mark)).take 2
  some (String.ofList (inner ++ seen).reverse, rest.drop inner.length)

/-- The rest of a text in three double quotes. A backslash at the end of a line drops the line's
end and all blanks and line ends after it, which is what `skipping` is for. -/
def blockText (skipping : Bool) (seen : List Char) : List Char → Option (String × List Char)
  | '\r' :: '\n' :: rest => blockText skipping (if skipping then seen else '\n' :: seen) rest
  | '\n' :: rest => blockText skipping (if skipping then seen else '\n' :: seen) rest
  | '"' :: '"' :: '"' :: rest => closing '"' seen rest
  | '\\' :: 'u' :: a :: b :: c :: d :: rest => do
    blockText false ((← numberedChar [a, b, c, d]) :: seen) rest
  | '\\' :: 'U' :: a :: b :: c :: d :: e :: f :: g :: h :: rest => do
    blockText false ((← numberedChar [a, b, c, d, e, f, g, h]) :: seen) rest
  | '\\' :: c :: rest =>
    if endsLine (c :: rest) then blockText true seen (c :: rest)
    else do blockText false ((← escapedChar c) :: seen) rest
  | c :: rest =>
    if skipping && isBlank c then blockText true seen rest
    else if c != '\\' && isPlain c then blockText false (c :: seen) rest
    else none
  | [] => none

/-- The rest of a text in three single quotes. -/
def literalBlock (seen : List Char) : List Char → Option (String × List Char)
  | '\'' :: '\'' :: '\'' :: rest => closing '\'' seen rest
  | '\r' :: '\n' :: rest => literalBlock ('\n' :: seen) rest
  | '\n' :: rest => literalBlock ('\n' :: seen) rest
  | c :: rest => if isPlain c then literalBlock (c :: seen) rest else none
  | [] => none

/-- A line end directly after the opening quotes does not count. -/
def afterOpening : List Char → List Char
  | '\n' :: rest => rest
  | '\r' :: '\n' :: rest => rest
  | rest => rest

def text? : List Char → Option (String × List Char)
  | '"' :: '"' :: '"' :: rest => blockText false [] (afterOpening rest)
  | '\'' :: '\'' :: '\'' :: rest => literalBlock [] (afterOpening rest)
  | '"' :: rest => quotedText [] rest
  | '\'' :: rest => literalText [] rest
  | _ => none

end NandTools.Toml
