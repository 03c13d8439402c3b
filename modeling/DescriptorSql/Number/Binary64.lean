/-!
# `Number/Binary64.lean` — binary64 values, and rounding to them

A binary64 value is `± significand · 2 ^ exponent`, so it is kept as those three parts and no
machine arithmetic is involved: rounding a quotient is exact arithmetic on naturals. `nearest?`
returns parts in normal form (the significand has 53 bits unless the exponent is the least one), so
equal values have equal parts. The parts could also write greater numbers; one of them, `overflow`,
stands for a number that was written and is beyond all finite values.
-/

set_option autoImplicit false

namespace DescriptorSql

/-- A binary64 value, `± significand · 2 ^ exponent`. -/
structure Binary64 where
  negative : Bool
  significand : Nat
  exponent : Int
  deriving DecidableEq, Repr

namespace Binary64

/-- The least exponent, that of subnormal values. -/
def leastExponent : Int := -1074

/-- The greatest exponent of a finite value. -/
def greatestExponent : Int := 971

/-- Zero of either sign. -/
def zero (negative : Bool) : Binary64 := ⟨negative, 0, leastExponent⟩

/-- The least power of two beyond the finite values, in place of whatever is beyond them. -/
def overflow (negative : Bool) : Binary64 := ⟨negative, Nat.pow 2 52, greatestExponent + 1⟩

/-- The value is not beyond the finite ones. -/
def isFinite (x : Binary64) : Bool := x.exponent ≤ greatestExponent

/-- The quotient rounded to the nearest natural; a tie goes to the even one. -/
def roundHalfEven (num den : Nat) : Nat :=
  let quotient := num / den
  let twice := 2 * (num % den)
  if twice < den then quotient
  else if den < twice then quotient + 1
  else quotient + quotient % 2

/-- The greatest `e` with `2 ^ e ≤ num / den`, for positive `num` and `den`. -/
def floorLog2 (num den : Nat) : Int :=
  let e : Int := (num.log2 : Int) - den.log2
  if den * Nat.pow 2 e.toNat ≤ num * Nat.pow 2 (-e).toNat then e else e - 1

/-- The binary64 value nearest to `± num / den` for a positive `den`, a tie going to the even
significand; `none` when that is beyond the greatest finite value. -/
def nearest? (negative : Bool) (num den : Nat) : Option Binary64 :=
  if num = 0 then some (zero negative)
  else
    let exponent := max (floorLog2 num den - 52) leastExponent
    let significand :=
      roundHalfEven (num * Nat.pow 2 (-exponent).toNat) (den * Nat.pow 2 exponent.toNat)
    let rounded : Binary64 :=
      if significand = Nat.pow 2 53 then ⟨negative, Nat.pow 2 52, exponent + 1⟩
      else ⟨negative, significand, exponent⟩
    if greatestExponent < rounded.exponent then none else some rounded

end Binary64

end DescriptorSql
