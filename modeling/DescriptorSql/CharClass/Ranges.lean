/-!
# `CharClass/Ranges.lean` — sets of characters as ranges of code points

A character property is a list of closed ranges in ascending order. `Ranges.contains` stops at the
first range that starts above the code point, so a look-up of an early character is short.
-/

set_option autoImplicit false

namespace DescriptorSql.CharClass

/-- Closed ranges of code points, in ascending order. -/
abbrev Ranges := List (Nat × Nat)

/-- The code point lies in one of the ranges. -/
def Ranges.contains : Ranges → Nat → Bool
  | [], _ => false
  | (lo, hi) :: rest, n => if n < lo then false else n ≤ hi || Ranges.contains rest n

end DescriptorSql.CharClass
