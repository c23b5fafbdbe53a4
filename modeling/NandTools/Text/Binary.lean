/-! Natural numbers in base two. -/
namespace NandTools.Text

/-- The digits of a number, without leading zeros. -/
def binaryDigits (n : Nat) : List Char :=
  let digit := if n % 2 = 0 then '0' else '1'
  if n < 2 then [digit] else binaryDigits (n / 2) ++ [digit]

/-- At least `width` digits. -/
def binary (width n : Nat) : String :=
  let digits := binaryDigits n
  String.ofList (List.replicate (width - digits.length) '0' ++ digits)

end NandTools.Text
