import DescriptorSql.Number.Binary64

/-!
# `Number/Decimal.lean` — decimal numbers, written and rounded

A decimal number is `± coefficient · 10 ^ exponent`. `Decimal.ofChars?` reads the plain written form
(a sign, digits with at most one point, an exponent); `Decimal.toBinary64?` rounds correctly, and
decides far-away magnitudes from the number of digits alone, so that an absurd exponent costs
nothing.
-/

set_option autoImplicit false

namespace DescriptorSql

/-- The number `± coefficient · 10 ^ exponent`. -/
structure Decimal where
  negative : Bool
  coefficient : Nat
  exponent : Int
  deriving DecidableEq, Repr

namespace Decimal

/-- An ASCII decimal digit. -/
def isDigit (c : Char) : Bool := '0' ≤ c && c ≤ '9'

/-- The number that a run of decimal digits writes. -/
def digitsValue (cs : List Char) : Nat :=
  cs.foldl (fun n c => 10 * n + (c.toNat - '0'.toNat)) 0

/-- The number of decimal digits of a natural; zero has one. -/
def digitCount (n : Nat) : Nat := (Nat.toDigits 10 n).length

/-- An optional sign: whether it is a minus, and the rest. -/
def splitSign : List Char → Bool × List Char
  | '-' :: rest => (true, rest)
  | '+' :: rest => (false, rest)
  | cs => (false, cs)

/-- An exponent part, mark included; the empty text is exponent zero. -/
def exponentOfChars? : List Char → Option Int
  | [] => some 0
  | mark :: rest =>
    let (negative, digits) := splitSign rest
    if (mark == 'e' || mark == 'E') && !digits.isEmpty && digits.all isDigit then
      some (if negative then -(digitsValue digits : Int) else digitsValue digits)
    else none

/-- Reads an optional sign, digits with an optional point (at least one digit, on either side), and
an optional exponent. -/
def ofChars? (cs : List Char) : Option Decimal :=
  let (negative, unsigned) := splitSign cs
  let whole := unsigned.takeWhile isDigit
  let afterWhole := unsigned.dropWhile isDigit
  let (fraction, afterFraction) :=
    match afterWhole with
    | '.' :: rest => (rest.takeWhile isDigit, rest.dropWhile isDigit)
    | _ => ([], afterWhole)
  if whole.isEmpty && fraction.isEmpty then none
  else
    (exponentOfChars? afterFraction).map fun exponent =>
      ⟨negative, digitsValue (whole ++ fraction), exponent - fraction.length⟩

/-- The nearest binary64 value, `none` on overflow. A value of 310 or more integer digits is beyond
every finite one, and one below `10 ^ (-330)` is nearer to zero than to the least positive one. -/
def toBinary64? (d : Decimal) : Option Binary64 :=
  let magnitude : Int := digitCount d.coefficient + d.exponent
  if d.coefficient = 0 || magnitude < -330 then some (Binary64.zero d.negative)
  else if 309 < magnitude then none
  else
    Binary64.nearest? d.negative (d.coefficient * Nat.pow 10 d.exponent.toNat)
      (Nat.pow 10 (-d.exponent).toNat)

end Decimal

end DescriptorSql
