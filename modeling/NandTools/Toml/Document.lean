import NandTools.Toml.Scalar
import NandTools.Toml.Text

/-! Whole TOML documents. -/
namespace NandTools.Toml

def isBareKey (c : Char) : Bool := c.isAlphanum || c == '_' || c == '-'

def skipBlanks (rest : List Char) : List Char := rest.dropWhile isBlank

/-- Values and keys nest less deep than this. -/
def nesting : Nat := 80

/-- One key without dots. -/
def simpleKey? (rest : List Char) : Option (String × List Char) :=
  match rest with
  | '"' :: rest => quotedText [] rest
  | '\'' :: rest => literalText [] rest
  | _ =>
    let key := rest.takeWhile isBareKey
    if key.isEmpty then none else some (String.ofList key, rest.drop key.length)

/-- Keys with dots between them, at most `room` of them, the last one first. -/
def dottedKey? (seen : List String) : (room : Nat) → List Char → Option (List String × List Char)
  | 0, _ => none
  | room + 1, rest => do
    let (key, rest) ← simpleKey? (skipBlanks rest)
    match skipBlanks rest with
    | '.' :: rest => dottedKey? (key :: seen) room rest
    | rest => some (key :: seen, rest)

/-- A key, as the way to it and its last part. -/
def key? (rest : List Char) : Option ((List String × String) × List Char) := do
  let (keys, rest) ← dottedKey? [] (nesting - 1) rest
  match keys with
  | last :: path => some ((path.reverse, last), rest)
  | [] => none

/-- Skip blanks, line ends and comments. A comment reaches to the end of its line. -/
def skipGap (comment : Bool) : List Char → Option (List Char)
  | '\n' :: rest => skipGap false rest
  | '\r' :: '\n' :: rest => skipGap false rest
  | c :: rest =>
    if comment then if isPlain c then skipGap true rest else none
    else if isBlank c then skipGap false rest
    else if c = '#' then skipGap true rest
    else some (c :: rest)
  | [] => if comment then none else some []

private def endsWord (c : Char) : Bool :=
  isBlank c || c == '\n' || c == '\r' || c == ',' || c == ']' || c == '}' || c == '#' || c == '='

/-- A word, and after a date also a blank and a second word that begins as a time of day does. -/
def scalarWord (rest : List Char) : List Char × List Char :=
  let word := rest.takeWhile (!endsWord ·)
  let after := rest.drop word.length
  match after with
  | ' ' :: a :: b :: ':' :: more =>
    if isDate word && a.isDigit && b.isDigit then
      let clock := more.takeWhile (!endsWord ·)
      (word ++ ' ' :: a :: b :: ':' :: clock, more.drop clock.length)
    else (word, after)
  | _ => (word, after)

mutual

/-- `room` bounds the depth, and `fuel` the number of steps. -/
def value? (room : Nat) : (fuel : Nat) → List Char → Option (Toml × List Char)
  | 0, _ => none
  | fuel + 1, rest =>
    match rest with
    | '[' :: rest => if room ≤ 1 then none else elements? (room - 1) [] fuel rest
    | '{' :: rest =>
      if room ≤ 1 then none
      else
        match skipBlanks rest with
        | '}' :: rest => some (table .braces [], rest)
        | rest => members? (room - 1) [] fuel rest
    | '"' :: _ | '\'' :: _ => (text? rest).map fun (text, rest) => (string text, rest)
    | _ =>
      let (word, rest) := scalarWord rest
      (scalar? word).map fun value => (value, rest)

/-- The rest of an array, after its bracket or a comma. -/
def elements? (room : Nat) (seen : List Toml) : (fuel : Nat) → List Char → Option (Toml × List Char)
  | 0, _ => none
  | fuel + 1, rest => do
    match ← skipGap false rest with
    | ']' :: rest => some (array seen.reverse, rest)
    | rest =>
      let (value, rest) ← value? room fuel rest
      match ← skipGap false rest with
      | ']' :: rest => some (array (value :: seen).reverse, rest)
      | ',' :: rest => elements? room (value :: seen) fuel rest
      | _ => none

/-- The rest of a table in braces, of which `seen` are the entries so far. -/
def members? (room : Nat) (seen : Entries) : (fuel : Nat) → List Char → Option (Toml × List Char)
  | 0, _ => none
  | fuel + 1, rest => do
    let ((path, key), rest) ← key? rest
    match rest with
    | '=' :: rest =>
      let (value, rest) ← value? room fuel (skipBlanks rest)
      let (_, seen) ← addValue path key value .header seen
      match skipBlanks rest with
      | '}' :: rest => some (table .braces seen, rest)
      | ',' :: rest => members? room seen fuel rest
      | _ => none
    | _ => none

end

/-- Nothing but blanks and a comment may stand before the end of a line. -/
def lineEnd? (rest : List Char) : Option (List Char) :=
  let rest := match skipBlanks rest with
    | '#' :: rest => rest.dropWhile isPlain
    | rest => rest
  match rest with
  | [] => some []
  | '\n' :: rest => some rest
  | '\r' :: '\n' :: rest => some rest
  | _ => none

/-- A document read so far: its entries and the header in force. -/
structure Draft where
  entries : Entries
  header : List String

/-- Add the line at the start of `rest` to a draft. -/
def line? (draft : Draft) (rest : List Char) : Option (Draft × List Char) := do
  match rest with
  | [] | '\n' :: _ | '\r' :: _ | '#' :: _ => some (draft, ← lineEnd? rest)
  | '[' :: '[' :: rest =>
    match ← key? rest with
    | ((path, key), ']' :: ']' :: rest) =>
      let (_, entries) ← addElement path key .header draft.entries
      some (⟨entries, path ++ [key]⟩, ← lineEnd? rest)
    | _ => none
  | '[' :: rest =>
    match ← key? rest with
    | ((path, key), ']' :: rest) =>
      let (_, entries) ← addTable path key .header draft.entries
      some (⟨entries, path ++ [key]⟩, ← lineEnd? rest)
    | _ => none
  | rest =>
    match ← key? rest with
    | ((path, key), '=' :: rest) =>
      let (value, rest) ← value? nesting (2 * rest.length + 2) (skipBlanks rest)
      let (_, entries) ← addUnder draft.header path key value .header draft.entries
      some (⟨entries, draft.header⟩, ← lineEnd? rest)
    | _ => none

def lines? (draft : Draft) : (fuel : Nat) → List Char → Option Entries
  | 0, _ => none
  | fuel + 1, rest =>
    match skipBlanks rest with
    | [] => some draft.entries
    | rest => do
      let (draft, rest) ← line? draft rest
      lines? draft fuel rest

/-- The entries of a document, unless it breaks a rule. A mark of the byte order may lead it. -/
def document? (text : List Char) : Option Entries :=
  let text := if text.head? = some '\uFEFF' then text.drop 1 else text
  lines? ⟨[], []⟩ (text.length + 1) text

end NandTools.Toml
