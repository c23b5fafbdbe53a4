/-! JSON texts. Values are written compactly, or with every element and member on a line of its
own, two blanks deeper than what holds it. -/
namespace NandTools

inductive JsonValue where
  | bool (value : Bool)
  | nat (value : Nat)
  | string (value : String)
  | array (elements : List JsonValue)
  | object (members : List (String × JsonValue))
deriving Repr, Inhabited

namespace JsonValue

private def hexDigit (n : Nat) : Char := "0123456789abcdef".toList.getD n '0'

/-- Quotes, backslashes and control characters are escaped; all else stands for itself. -/
def escape (c : Char) : List Char :=
  if c = '"' then ['\\', '"']
  else if c = '\\' then ['\\', '\\']
  else if c = '\n' then ['\\', 'n']
  else if c = '\r' then ['\\', 'r']
  else if c = '\t' then ['\\', 't']
  else if c = '\x08' then ['\\', 'b']
  else if c = '\x0c' then ['\\', 'f']
  else if c.toNat < 0x20 then
    ['\\', 'u', '0', '0', hexDigit (c.toNat / 16), hexDigit (c.toNat % 16)]
  else [c]

def quoted (text : String) : String :=
  "\"" ++ text.foldl (fun out c => (escape c).foldl String.push out) "" ++ "\""

/-- How far the text is indented inside a value, or none for a compact text. -/
abbrev Layout := Option Nat

namespace Layout

def deeper (layout : Layout) : Layout := layout.map (· + 2)

def newline : Layout → String
  | some indent => "\n".pushn ' ' indent
  | none => ""

def colon : Layout → String
  | some _ => ": "
  | none => ":"

end Layout

mutual

/-- Append the text of a value to `out`. -/
def append (layout : Layout) (out : String) : JsonValue → String
  | bool value => out ++ toString value
  | nat value => out ++ toString value
  | string value => out ++ quoted value
  | array [] => out ++ "[]"
  | array elements =>
    (appendElements layout.deeper (out ++ "[") "" elements) ++ layout.newline ++ "]"
  | object [] => out ++ "\x7b\x7d"
  | object members =>
    (appendMembers layout.deeper (out ++ "\x7b") "" members) ++ layout.newline ++ "\x7d"

def appendElements (layout : Layout) (out separator : String) : List JsonValue → String
  | [] => out
  | value :: rest =>
    appendElements layout (append layout (out ++ separator ++ layout.newline) value) "," rest

def appendMembers (layout : Layout) (out separator : String) :
    List (String × JsonValue) → String
  | [] => out
  | (name, value) :: rest =>
    let opened := out ++ separator ++ layout.newline ++ quoted name ++ layout.colon
    appendMembers layout (append layout opened value) "," rest

end

def compact (value : JsonValue) : String := append none "" value

def pretty (value : JsonValue) : String := append (some 0) "" value

end JsonValue

end NandTools
