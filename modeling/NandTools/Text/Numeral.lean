/-! Unsigned decimal numerals: their texts, and their readings up to a bound. -/
namespace NandTools.Text

/-- The digits of a number, led by zeros up to `width`. -/
def padded (width n : Nat) : String :=
  let digits := toString n
  "".pushn '0' (width - digits.length) ++ digits

def digitValue (c : Char) : Nat := c.toNat - '0'.toNat

/-- Append one decimal digit to a value, unless that leaves the bound. -/
def appendDigit (bound value : Nat) (c : Char) : Option Nat :=
  let next := 10 * value + digitValue c
  if c.isDigit && next ≤ bound then some next else none

/-- The value of a non-empty run of decimal digits, if it is at most `bound`. Leading zeros
are allowed. -/
def readNat (bound : Nat) : List Char → Option Nat
  | [] => none
  | digits => digits.foldlM (appendDigit bound) 0

/-- As `readNat`, with one optional leading plus sign. -/
def readSigned (bound : Nat) : List Char → Option Nat
  | '+' :: digits => readNat bound digits
  | digits => readNat bound digits

end NandTools.Text
