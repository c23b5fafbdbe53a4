import NandTools.Text.Numeral

/-! Points in time as Gregorian dates with a time of day, in universal time. -/
namespace NandTools.Text

structure Date where
  year : Int
  month : Nat
  day : Nat
deriving Repr, DecidableEq

namespace Date

/-- The date so many days after the first of January 1970. The count runs over eras of 400
years that begin in March, so that the leap day is the last of its year. -/
def ofDays (days : Int) : Date :=
  let shifted := days + 719468
  let era := shifted.fdiv 146097
  let dayOfEra := (shifted - era * 146097).toNat
  let yearOfEra := (dayOfEra - dayOfEra / 1460 + dayOfEra / 36524 - dayOfEra / 146096) / 365
  let dayOfYear := dayOfEra - (365 * yearOfEra + yearOfEra / 4 - yearOfEra / 100)
  let march := (5 * dayOfYear + 2) / 153
  let month := if march < 10 then march + 3 else march - 9
  let turned : Int := if month ≤ 2 then 1 else 0
  ⟨era * 400 + (yearOfEra : Nat) + turned, month, dayOfYear - (153 * march + 2) / 5 + 1⟩

end Date

/-- Years outside the four digits carry their sign. -/
def yearText (year : Int) : String :=
  if 0 ≤ year && year ≤ 9999 then padded 4 year.toNat
  else (if year < 0 then "-" else "+") ++ padded 4 year.natAbs

/-- The time so many milliseconds after the start of 1970. Whole seconds have no fraction. -/
def timestamp (milliseconds : Int) : String :=
  let seconds := milliseconds.fdiv 1000
  let fraction := (milliseconds - seconds * 1000).toNat
  let days := seconds.fdiv 86400
  let ofDay := (seconds - days * 86400).toNat
  let date := Date.ofDays days
  let clock := s!"{padded 2 (ofDay / 3600)}:{padded 2 (ofDay / 60 % 60)}:{padded 2 (ofDay % 60)}"
  let rest := if fraction = 0 then "" else s!".{padded 3 fraction}"
  s!"{yearText date.year}-{padded 2 date.month}-{padded 2 date.day}T{clock}{rest}+00:00"

end NandTools.Text
