import DescriptorSql.Number.Decimal

/-!
# `Number/Shortest.lean` — the fewest digits that read back

A binary64 value is written with the fewest decimal digits that round to it again, and among those
with the digits nearest to it. The reals that round to a value form an interval around it, whose
ends belong to it exactly when the significand is even. For one digit, two digits, and so on, the
two decimals of that length next to the value are tested against the interval in exact arithmetic;
the first length with a hit wins. Seventeen digits always hit.
-/

set_option autoImplicit false

namespace DescriptorSql

/-- A positive decimal `0.d₁d₂… · 10 ^ point`, its first digit not zero. -/
structure DecimalDigits where
  digits : List Char
  point : Int
  deriving DecidableEq, Repr

namespace Binary64

/-- The reals that round to a value, scaled to naturals: the value and the two ends are
`centre`, `low` and `high`, each over `den`. -/
structure RoundingInterval where
  low : Nat
  centre : Nat
  high : Nat
  den : Nat
  closed : Bool

/-- The rounding interval of a positive value. In quarters of the last place, the ends lie two
quarters away, and the lower one only one quarter where the exponent below is smaller. -/
def roundingInterval (x : Binary64) : RoundingInterval :=
  let scale := Nat.pow 2 (x.exponent - 2).toNat
  let below := if x.significand = Nat.pow 2 52 && leastExponent < x.exponent then 1 else 2
  { low := (4 * x.significand - below) * scale
    centre := 4 * x.significand * scale
    high := (4 * x.significand + 2) * scale
    den := Nat.pow 2 (2 - x.exponent).toNat
    closed := x.significand % 2 == 0 }

/-- The decimal `n / (num / den)` lies in the interval, where the grid has `num / den` points in a
unit. -/
def RoundingInterval.holds (i : RoundingInterval) (num den n : Nat) : Bool :=
  let point := n * den * i.den
  if i.closed then i.low * num ≤ point && point ≤ i.high * num
  else i.low * num < point && point < i.high * num

/-- The least `p` with `num / den < 10 ^ p`, for positive `num` and `den`. -/
def decimalPoint (num den : Nat) : Int :=
  if den ≤ num then Decimal.digitCount (num / den)
  else 1 - (Decimal.digitCount ((den + num - 1) / num - 1) : Int)

/-- Of the two decimals with `length` digits around the value, the one in the interval; of two, the
nearer, a tie going to the even one. -/
def RoundingInterval.candidate? (i : RoundingInterval) (point : Int) (length : Nat) : Option Nat :=
  let places : Int := length - point
  let num := Nat.pow 10 places.toNat
  let den := Nat.pow 10 (-places).toNat
  let scaled := i.centre * num
  let unit := i.den * den
  let below := scaled / unit
  let twice := 2 * (scaled % unit)
  match i.holds num den below, i.holds num den (below + 1) with
  | true, false => some below
  | false, true => some (below + 1)
  | false, false => none
  | true, true =>
    if twice < unit then some below
    else if unit < twice then some (below + 1)
    else some (below + below % 2)

/-- The most digits that are ever needed. -/
def longestDigits : Nat := 17

/-- The shortest digits of a positive value. -/
def shortestDigits (x : Binary64) : DecimalDigits :=
  let interval := x.roundingInterval
  let point := decimalPoint interval.centre interval.den
  let found := (List.range longestDigits).findSome? fun i =>
    (interval.candidate? point (i + 1)).map fun n => (n, i + 1)
  let (n, length) := found.getD (0, 1)
  let digits := Nat.toDigits 10 n
  { digits := (digits.reverse.dropWhile (· == '0')).reverse
    point := point + digits.length - length }

end Binary64

/-- How shortest digits are laid out as text. Where the decimal point falls from `leastPoint` to
`greatestPoint` digits into the number it is written in place, with at least one digit on both sides
of it; elsewhere the number has an exponent. -/
structure DecimalLayout where
  leastPoint : Int
  greatestPoint : Int
  plusOnExponent : Bool

namespace DecimalLayout

def exponentText (layout : DecimalLayout) (e : Int) : String :=
  if e < 0 then "e-" ++ Nat.repr e.natAbs
  else (if layout.plusOnExponent then "e+" else "e") ++ Nat.repr e.natAbs

/-- Shortest digits as text. -/
def positiveText (layout : DecimalLayout) (d : DecimalDigits) : String :=
  let count : Int := d.digits.length
  if layout.leastPoint ≤ d.point && d.point ≤ layout.greatestPoint then
    if count ≤ d.point then
      String.ofList (d.digits ++ List.replicate (d.point - count).toNat '0') ++ ".0"
    else if 0 < d.point then
      String.ofList (d.digits.take d.point.toNat ++ '.' :: d.digits.drop d.point.toNat)
    else
      "0." ++ String.ofList (List.replicate (-d.point).toNat '0' ++ d.digits)
  else
    let mantissa :=
      match d.digits with
      | first :: second :: rest => first :: '.' :: second :: rest
      | digits => digits
    String.ofList mantissa ++ layout.exponentText (d.point - 1)

def text (layout : DecimalLayout) (x : Binary64) : String :=
  let unsigned := if x.significand = 0 then "0.0" else layout.positiveText x.shortestDigits
  if x.negative then "-" ++ unsigned else unsigned

end DecimalLayout

end DescriptorSql
