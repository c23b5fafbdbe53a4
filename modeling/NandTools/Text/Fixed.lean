import NandTools.Text.Numeral

/-! Numbers with a fixed count of decimal places, rounded to the nearest, a half to the even
neighbour. -/
namespace NandTools.Text

/-- The quotient rounded to the nearest natural number, a half to the even one. -/
def roundDiv (num den : Nat) : Nat :=
  let quotient := num / den
  let twice := 2 * (num % den)
  if twice < den then quotient
  else if den < twice then quotient + 1
  else quotient + quotient % 2

/-- A quotient with `places` decimals, of which there is at least one. -/
def fixedRatio (places num den : Nat) : String :=
  let unit := Nat.pow 10 places
  let scaled := roundDiv (num * unit) den
  s!"{scaled / unit}.{padded places (scaled % unit)}"

/-- The exact value of a finite, non-negative binary fraction, as a quotient. -/
def ratioOf (x : Float) : Nat × Nat :=
  let bits := x.toBits.toNat
  let one := Nat.pow 2 52
  let exponent := bits / one % 2048
  let fraction := bits % one
  if exponent = 0 then (fraction, Nat.pow 2 1074)
  else if exponent < 1075 then (fraction + one, Nat.pow 2 (1075 - exponent))
  else ((fraction + one) * Nat.pow 2 (exponent - 1075), 1)

/-- The exact value decides the rounding, not the shortest text that reads back. -/
def fixed (places : Nat) (x : Float) : String :=
  let (num, den) := ratioOf x
  fixedRatio places num den

end NandTools.Text
