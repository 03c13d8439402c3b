/-!
# `Descriptor/Operator.lean` — comparison operators, quantifiers, connectives

The closed vocabularies of a predicate. Every operator has a name in descriptors and a spelling in
statements; `ofName?` is the inverse of `name`.
-/

set_option autoImplicit false

namespace DescriptorSql

inductive Operator where
  | equals
  | notEquals
  | lessThan
  | greaterThan
  | lessThanOrEqual
  | greaterThanOrEqual
  | like
  | notLike
  | iLike
  | notILike
  | isIn
  | notIn
  | between
  | notBetween
  | is
  deriving DecidableEq, Repr

namespace Operator

def all : List Operator :=
  [.equals, .notEquals, .lessThan, .greaterThan, .lessThanOrEqual, .greaterThanOrEqual, .like,
    .notLike, .iLike, .notILike, .isIn, .notIn, .between, .notBetween, .is]

/-- The operator's name in descriptors. -/
def name : Operator → String
  | equals => "equals"
  | notEquals => "notEquals"
  | lessThan => "lessThan"
  | greaterThan => "greaterThan"
  | lessThanOrEqual => "lessThanOrEqual"
  | greaterThanOrEqual => "greaterThanOrEqual"
  | like => "like"
  | notLike => "notLike"
  | iLike => "iLike"
  | notILike => "notILike"
  | isIn => "in"
  | notIn => "notIn"
  | between => "between"
  | notBetween => "notBetween"
  | is => "is"

/-- The operator's spelling in statements. -/
def sql : Operator → String
  | equals => "="
  | notEquals => "<>"
  | lessThan => "<"
  | greaterThan => ">"
  | lessThanOrEqual => "<="
  | greaterThanOrEqual => ">="
  | like => "LIKE"
  | notLike => "NOT LIKE"
  | iLike => "ILIKE"
  | notILike => "NOT ILIKE"
  | isIn => "IN"
  | notIn => "NOT IN"
  | between => "BETWEEN"
  | notBetween => "NOT BETWEEN"
  | is => "IS"

def ofName? (text : String) : Option Operator := all.find? (·.name == text)

/-- Compares with a list of values or with subqueries. -/
def isMembership : Operator → Bool
  | isIn | notIn => true
  | _ => false

/-- Compares with two bounds. -/
def isRange : Operator → Bool
  | between | notBetween => true
  | _ => false

theorem mem_all (operator : Operator) : operator ∈ all := by cases operator <;> decide

@[simp] theorem ofName?_name (operator : Operator) : ofName? operator.name = some operator := by
  cases operator <;> decide

theorem name_eq_of_ofName? {text : String} {operator : Operator}
    (h : ofName? text = some operator) : operator.name = text := by
  simpa using List.find?_some h

end Operator

/-- How a comparison ranges over the rows of a subquery. -/
inductive Quantifier where
  | some
  | all
  deriving DecidableEq, Repr

namespace Quantifier

/-- The quantifier's spelling in statements. -/
def sql : Quantifier → String
  | .some => "SOME"
  | .all => "ALL"

def ofName? : String → Option Quantifier
  | "some" => .some .some
  | "all" => .some .all
  | _ => .none

end Quantifier

/-- What joins the entries of a predicate. -/
inductive Connective where
  | and
  | or
  deriving DecidableEq, Repr

/-- The connective between two conditions, spaces included. -/
def Connective.separator : Connective → String
  | .and => " AND "
  | .or => " OR "

end DescriptorSql
