import NandTools.Text.Hidden

/-! Texts in double quotes, with everything escaped that would not show. -/
namespace NandTools.Text

def escapeHidden (c : Char) : String :=
  if c = '"' then "\\\""
  else if c = '\\' then "\\\\"
  else if c = '\n' then "\\n"
  else if c = '\r' then "\\r"
  else if c = '\t' then "\\t"
  else if c.toNat = 0 then "\\0"
  else if isHidden c then "\\u\x7b" ++ String.ofList (Nat.toDigits 16 c.toNat) ++ "\x7d"
  else String.singleton c

def quoted (text : String) : String := "\"" ++ String.join (text.toList.map escapeHidden) ++ "\""

end NandTools.Text
