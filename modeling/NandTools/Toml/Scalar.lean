import NandTools.Text.Numeral
import NandTools.Toml

/-! Numbers, truth values and points in time in TOML. Each is one word; only a date and a time of
day may have a blank between them. -/
namespace NandTools.Toml

def isDecimal (c : Char) : Bool := c.isDigit

def isHexadecimal (c : Char) : Bool :=
  c.isDigit || ('a' ≤ c && c ≤ 'f') || ('A' ≤ c && c ≤ 'F')

def isOctal (c : Char) : Bool := '0' ≤ c && c ≤ '7'

def isBinary (c : Char) : Bool := c == '0' || c == '1'

def digitOf (c : Char) : Nat :=
  if c.isDigit then c.toNat - '0'.toNat else c.toLower.toNat - 'a'.toNat + 10

/-- The digits of a run, in which single underscores may stand between two digits. -/
def digitRun (isDigit : Char → Bool) : List Char → Option (List Char)
  | [c] => if isDigit c then some [c] else none
  | c :: '_' :: rest => if isDigit c then (digitRun isDigit rest).map (c :: ·) else none
  | c :: rest => if isDigit c then (digitRun isDigit rest).map (c :: ·) else none
  | [] => none

def valueOf (base : Nat) (digits : List Char) : Nat :=
  digits.foldl (fun value c => base * value + digitOf c) 0

/-- The sign of a number, and the number without it. -/
def splitSign : List Char → Bool × List Char
  | '-' :: rest => (true, rest)
  | '+' :: rest => (false, rest)
  | word => (false, word)

/-- A decimal run without leading zeros. -/
def decimalRun (word : List Char) : Option (List Char) := do
  let digits ← digitRun isDecimal word
  if digits.head? = some '0' && digits.length > 1 then none else some digits

/-- Integers have 64 bits and a sign: those below zero reach down to the negated bound. -/
def integerBound : Nat := 9223372036854775808

def integer? (word : List Char) : Option Int := do
  let based (base : Nat) (isDigit : Char → Bool) (digits : List Char) : Option Int := do
    let value := valueOf base (← digitRun isDigit digits)
    if value < integerBound then some value else none
  match word with
  | '0' :: 'x' :: digits => based 16 isHexadecimal digits
  | '0' :: 'o' :: digits => based 8 isOctal digits
  | '0' :: 'b' :: digits => based 2 isBinary digits
  | _ =>
    let (negative, digits) := splitSign word
    let size : Int := valueOf 10 (← decimalRun digits)
    let value := if negative then -size else size
    if -integerBound ≤ value && value < integerBound then some value else none

/-- Whether `significand * 10 ^ exponent` is too large for a binary fraction of 64 bits. The
clipped exponents decide as the given ones do. -/
def isHuge (significand : Nat) (exponent : Int) : Bool :=
  let bound := Nat.pow 2 1024 - Nat.pow 2 970
  if significand = 0 then false
  else if 0 ≤ exponent then bound ≤ significand * Nat.pow 10 (min exponent.toNat 400)
  else
    let shift := exponent.natAbs
    if (toString significand).length < shift then false else bound * Nat.pow 10 shift ≤ significand

private def isExponentMark (c : Char) : Bool := c == 'e' || c == 'E'

/-- Fractions and powers of ten, the infinities, and what is no number. A positive number must not
be too large. -/
def isFloat (word : List Char) : Bool :=
  let (negative, size) := splitSign word
  if size = "inf".toList || size = "nan".toList then true
  else
    let mantissa := size.takeWhile (!isExponentMark ·)
    let power? : Option Int := match size.drop mantissa.length with
      | [] => some 0
      | _ :: power =>
        let (down, digits) := splitSign power
        (digitRun isDecimal digits).map fun digits =>
          let exponent : Int := valueOf 10 digits
          if down then -exponent else exponent
    let whole := mantissa.takeWhile (· != '.')
    let places? : Option (List Char) := match mantissa.drop whole.length with
      | [] => some []
      | _ :: places => digitRun isDecimal places
    match decimalRun whole, places?, power? with
    | some whole, some places, some power =>
      mantissa.length < size.length + places.length &&
        (negative || !isHuge (valueOf 10 (whole ++ places)) (power - (places.length : Nat)))
    | _, _, _ => false

/-- A number of exactly `width` digits, within bounds. -/
def boundedNumber (width low high : Nat) (digits : List Char) : Bool :=
  digits.length == width && digits.all isDecimal && low ≤ valueOf 10 digits &&
    valueOf 10 digits ≤ high

def daysIn (year month : Nat) : Nat :=
  if month = 2 then
    if year % 4 = 0 && (year % 100 != 0 || year % 400 = 0) then 29 else 28
  else if month = 4 || month = 6 || month = 9 || month = 11 then 30
  else 31

def isDate (word : List Char) : Bool :=
  match word.splitOn '-' with
  | [year, month, day] =>
    boundedNumber 4 0 9999 year && boundedNumber 2 1 12 month &&
      boundedNumber 2 1 (daysIn (valueOf 10 year) (valueOf 10 month)) day
  | _ => false

/-- A time of day, with a leap second and a fraction allowed. -/
def isClock (word : List Char) : Bool :=
  let whole := word.takeWhile (· != '.')
  let fraction := match word.drop whole.length with
    | [] => true
    | _ :: digits => !digits.isEmpty && digits.all isDecimal
  match whole.splitOn ':' with
  | [hour, minute, second] =>
    boundedNumber 2 0 23 hour && boundedNumber 2 0 59 minute && boundedNumber 2 0 60 second &&
      fraction
  | _ => false

private def isOffset : List Char → Bool
  | ['Z'] | ['z'] => true
  | '+' :: rest | '-' :: rest =>
    match rest.splitOn ':' with
    | [hour, minute] => boundedNumber 2 0 23 hour && boundedNumber 2 0 59 minute
    | _ => false
  | _ => false

/-- A time of day, and perhaps how far its zone is from universal time. -/
def isZonedClock (word : List Char) : Bool :=
  let startsOffset (c : Char) : Bool := c == 'Z' || c == 'z' || c == '+' || c == '-'
  let clock := word.takeWhile (!startsOffset ·)
  let offset := word.drop clock.length
  isClock clock && (offset.isEmpty || isOffset offset)

def isTime (word : List Char) : Bool :=
  let date := word.take 10
  match word.drop 10 with
  | [] => isDate date || isClock word
  | c :: clock =>
    ((c == 'T' || c == 't' || c == ' ') && isDate date && isZonedClock clock) || isClock word

def scalar? (word : List Char) : Option Toml :=
  if word = "true".toList then some (boolean true)
  else if word = "false".toList then some (boolean false)
  else if let some value := integer? word then some (integer value)
  else if isFloat word then some float
  else if isTime word then some time
  else none

end NandTools.Toml
