import DescriptorSql.Entries
import DescriptorSql.Number.Binary64

/-!
# `Json/Basic.lean` — JSON values

Descriptors, data and parameter values are JSON. An object keeps its members in the order they were
written, and a number remembers whether it was written as an integer: `1` and `1.0` are different
values and are written differently.
-/

set_option autoImplicit false

namespace DescriptorSql

/-- A JSON number: an integer, or a binary64 value. -/
inductive JsonNumber where
  | int (value : Int)
  | double (value : Binary64)
  deriving DecidableEq, Repr

/-- A JSON value; the members of an object are in written order. -/
inductive Json where
  | null
  | bool (value : Bool)
  | number (value : JsonNumber)
  | string (value : String)
  | array (items : List Json)
  | object (members : List (String × Json))
  deriving Repr, Inhabited

namespace Json

def ofNat (n : Nat) : Json := .number (.int n)

/-- The integers that fit 64 bits, signed or unsigned; every other number is a binary64 value. -/
def isWordInteger (n : Int) : Bool :=
  -Int.ofNat (Nat.pow 2 63) ≤ n && n < Int.ofNat (Nat.pow 2 64)

mutual

/-- Every number in a value is finite. -/
def hasFiniteNumbers : Json → Bool
  | .number (.double x) => x.isFinite
  | .array items => itemsHaveFiniteNumbers items
  | .object members => membersHaveFiniteNumbers members
  | _ => true

def itemsHaveFiniteNumbers : List Json → Bool
  | [] => true
  | item :: rest => item.hasFiniteNumbers && itemsHaveFiniteNumbers rest

def membersHaveFiniteNumbers : List (String × Json) → Bool
  | [] => true
  | (_, value) :: rest => value.hasFiniteNumbers && membersHaveFiniteNumbers rest

end

/-- The members of an object that has some. -/
def nonemptyMembers? : Json → Option (Entries String Json)
  | .object (member :: rest) => some (member :: rest)
  | _ => none

end Json

end DescriptorSql
