import DescriptorSql.Json.Basic
import DescriptorSql.Number.Decimal

/-!
# `Toml/Scalar.lean` — unquoted values

Truth values, integers in four radices, decimal fractions, the numbers without a value, and dates
with times. Digits may be grouped by single low lines. A scalar becomes a JSON value of the same
kind. JSON has no infinity and no date: the first becomes a zero, and the second an object with one
entry that is the date's text, so that neither is taken for anything else. A number out of range is
no error here, because it may stand where nobody reads it; it becomes `Binary64.overflow`.
-/

set_option autoImplicit false

namespace DescriptorSql.Toml

open Decimal (isDigit digitsValue)

/-! ## Numbers -/

/-- Digits with single low lines between them: the digits alone. -/
def groupedDigits? (isDigit : Char → Bool) : List Char → Option (List Char)
  | [] => none
  | [c] => if isDigit c then some [c] else none
  | c :: '_' :: rest => if isDigit c then (groupedDigits? isDigit rest).map (c :: ·) else none
  | c :: rest => if isDigit c then (groupedDigits? isDigit rest).map (c :: ·) else none

/-- Grouped decimal digits that do not start with a superfluous zero. -/
def wholeDigits? (cs : List Char) : Option (List Char) := do
  match ← groupedDigits? isDigit cs with
  | '0' :: _ :: _ => none
  | digits => return digits

/-- The value of a digit below sixteen. -/
def digitValue (c : Char) : Nat :=
  if isDigit c then c.toNat - '0'.toNat
  else if 'a' ≤ c && c ≤ 'f' then c.toNat - 'a'.toNat + 10
  else if 'A' ≤ c && c ≤ 'F' then c.toNat - 'A'.toNat + 10
  else 16

def integerJson (n : Int) : Json :=
  if -Int.ofNat (Nat.pow 2 127) ≤ n && n < Int.ofNat (Nat.pow 2 128) then .number (.int n)
  else .number (.double (.overflow (n < 0)))

/-- An integer in a radix, its mark left out. -/
def radixInteger? (radix : Nat) (cs : List Char) : Option Json := do
  let digits ← groupedDigits? (digitValue · < radix) cs
  return integerJson (Int.ofNat (digits.foldl (fun n c => radix * n + digitValue c) 0))

/-- The fraction at the front: its digits, and what follows. -/
def splitFraction? : List Char → Option (List Char × List Char)
  | '.' :: rest => do
    let inFraction (c : Char) : Bool := isDigit c || c == '_'
    return (← groupedDigits? isDigit (rest.takeWhile inFraction), rest.dropWhile inFraction)
  | rest => some ([], rest)

/-- An exponent part, which has to be there if no fraction is. -/
def exponent? : List Char → Option Int
  | [] => some 0
  | mark :: rest => do
    let (negative, digits) := Decimal.splitSign rest
    if mark == 'e' || mark == 'E' then
      let value : Int := digitsValue (← groupedDigits? isDigit digits)
      return if negative then -value else value
    else none

/-- A decimal number with a sign: an integer, or a fraction or power of ten. -/
def decimal? (cs : List Char) : Option Json := do
  let (negative, unsigned) := Decimal.splitSign cs
  let inWhole (c : Char) : Bool := isDigit c || c == '_'
  let whole ← wholeDigits? (unsigned.takeWhile inWhole)
  match unsigned.dropWhile inWhole with
  | [] =>
    let value : Int := digitsValue whole
    return integerJson (if negative then -value else value)
  | rest =>
    let (fraction, afterFraction) ← splitFraction? rest
    let exponent ← exponent? afterFraction
    let decimal : Decimal :=
      ⟨negative, digitsValue (whole ++ fraction), exponent - fraction.length⟩
    return .number (.double (decimal.toBinary64?.getD (.overflow negative)))

/-- Infinity or not a number, with an optional sign. -/
def isWithoutValue (cs : List Char) : Bool :=
  let unsigned := (Decimal.splitSign cs).2
  unsigned == ['i', 'n', 'f'] || unsigned == ['n', 'a', 'n']

def number? : List Char → Option Json
  | '0' :: 'x' :: digits => radixInteger? 16 digits
  | '0' :: 'o' :: digits => radixInteger? 8 digits
  | '0' :: 'b' :: digits => radixInteger? 2 digits
  | cs =>
    if isWithoutValue cs then some (.number (.double (.zero false))) else decimal? cs

/-! ## Dates and times -/

/-- A number of exactly two digits. -/
def twoDigits? : List Char → Option (Nat × List Char)
  | a :: b :: rest =>
    if isDigit a && isDigit b then some (digitsValue [a, b], rest) else none
  | _ => none

/-- The length of a month. -/
def monthLength (year month : Nat) : Nat :=
  if month == 2 then
    if year % 4 == 0 && (year % 100 != 0 || year % 400 == 0) then 29 else 28
  else if month == 4 || month == 6 || month == 9 || month == 11 then 30
  else 31

/-- A date at the front, and what follows it. -/
def afterDate? : List Char → Option (List Char)
  | a :: b :: c :: d :: '-' :: rest => do
    if !([a, b, c, d].all isDigit) then none
    else
      let (month, rest) ← twoDigits? rest
      match rest with
      | '-' :: rest =>
        let (day, rest) ← twoDigits? rest
        let year := digitsValue [a, b, c, d]
        if 1 ≤ month && month ≤ 12 && 1 ≤ day && day ≤ monthLength year month then return rest
        else none
      | _ => none
  | _ => none

/-- What follows an optional fraction of a second. -/
def afterFraction? : List Char → Option (List Char)
  | '.' :: c :: rest => if isDigit c then some (rest.dropWhile isDigit) else none
  | '.' :: [] => none
  | rest => some rest

/-- A time at the front, and what follows it; the seconds are optional. -/
def afterTime? (cs : List Char) : Option (List Char) := do
  let (hour, rest) ← twoDigits? cs
  match rest with
  | ':' :: rest =>
    let (minute, rest) ← twoDigits? rest
    if 23 < hour || 59 < minute then none
    else
      match rest with
      | ':' :: rest =>
        let (second, rest) ← twoDigits? rest
        if 60 < second then none else afterFraction? rest
      | rest => return rest
  | _ => none

/-- A whole offset from universal time. -/
def isOffset : List Char → Bool
  | [] | ['Z'] | ['z'] => true
  | sign :: a :: b :: ':' :: c :: [d] =>
    (sign == '+' || sign == '-') && [a, b, c, d].all isDigit &&
      digitsValue [a, b] ≤ 23 && digitsValue [c, d] ≤ 59
  | _ => false

/-- A date, a time, or a date with a time and perhaps an offset. -/
def isDateTime (cs : List Char) : Bool :=
  match afterDate? cs with
  | some [] => true
  | some (mark :: rest) =>
    (mark == 'T' || mark == 't' || mark == ' ') && (afterTime? rest).any isOffset
  | none => afterTime? cs == some []

/-! ## All scalars -/

def scalar? (cs : List Char) : Option Json :=
  if cs == ['t', 'r', 'u', 'e'] then some (.bool true)
  else if cs == ['f', 'a', 'l', 's', 'e'] then some (.bool false)
  else if isDateTime cs then some (.object [("\x00date-time", .string (String.ofList cs))])
  else number? cs

end DescriptorSql.Toml
