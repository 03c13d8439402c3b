import DescriptorSql.Json.Printer

/-!
# `Descriptor/Error.lean` — what can be wrong with a descriptor

Errors are causes: each constructor names one defect and carries what the message needs, and
`QueryError.message` is the only place where a cause becomes words. Every cause is a defect of the
input, so none of them goes away by trying again.

`Mistake` is the part that reading JSON as a descriptor finds. A predicate is read by its own rules,
and an error there becomes a mistake of the descriptor around it (`Mistake.predicate`), so a message
says once for every enclosing descriptor that the descriptor is invalid.
-/

set_option autoImplicit false

namespace DescriptorSql

/-- The shape that an operand, or the value of a logical key, should have had. -/
inductive OperandShape where
  | branches
  | relations
  | existsBody
  | listOrSubqueries
  | pair
  | valueOrQuantified
  | subqueries
  deriving DecidableEq, Repr

def OperandShape.text : OperandShape → String
  | branches => "an array of conditions"
  | relations => "a map of relations"
  | existsBody => "a subquery or `true`"
  | listOrSubqueries => "an array or a map of subqueries"
  | pair => "an array of two values"
  | valueOrQuantified => "a value or a some/all subquery map"
  | subqueries => "a map of subqueries"

/-- A part of a descriptor that is missing, empty or of the wrong form. -/
inductive Violation where
  | predicateForm
  | blankTable
  | insertData
  | insertRows
  | updateData
  | conflictTarget
  | blankName
  /-- A violation in the caller's own words. -/
  | stated (text : String)
  deriving DecidableEq, Repr

def Violation.text : Violation → String
  | predicateForm => "A where condition must be an object"
  | blankTable => "Table name is missing or invalid"
  | insertData => "Data object cannot be empty or invalid"
  | insertRows => "Data must be a non-empty array"
  | updateData => "Data object cannot be empty, an array, or otherwise invalid"
  | conflictTarget => "onConflict needs either a non-empty columns list or a constraint name"
  | blankName => "Table and column names should not be empty"
  | stated text => text

/-- What a part of a descriptor is read as. -/
inductive Wanted where
  | string
  | boolean
  | map
  | sequence
  | unit
  | stringOrMap
  | variantName
  /-- A record or a tagged union, by its full name. -/
  | named (name : String)
  deriving DecidableEq, Repr

def Wanted.text : Wanted → String
  | string => "a string"
  | boolean => "a boolean"
  | map => "a map"
  | sequence => "a sequence"
  | unit => "unit"
  | stringOrMap => "string or map"
  | variantName => "variant identifier"
  | named name => name

mutual

/-- Why a descriptor does not compile, or why a text does not bind. -/
inductive QueryError where
  | validation (violation : Violation)
  | relationNotFound (name : String)
  | malformedOperator (operator : String) (expected : OperandShape)
  | unknownOperator (name : String)
  | missingParameterValue (name : String)
  | emptyQuery
  | invalidDescriptor (mistake : Mistake)

/-- Why a JSON value cannot be read as a part of a descriptor. -/
inductive Mistake where
  | wrongType (found : Json) (wanted : Wanted)
  | missingField (name : String)
  | duplicateField (name : String)
  | unknownVariant (text : String) (variants : List String)
  /-- A record given as an array that ends before a field which has no default. -/
  | missingItem (index : Nat) (record : String) (size : Nat)
  /-- A record given as an array with more items than fields. -/
  | extraItems (count : Nat)
  /-- A variant given as an array with more items after its tag than fields. -/
  | extraContent (count : Nat) (size : Nat)
  /-- A variant given as an object that has not exactly one key. -/
  | notOneKey
  /-- A number that was written is beyond what its kind holds. -/
  | overflow
  | columnForm
  | falseColumn
  | boundForm
  | predicate (error : QueryError)
  /-- A mistake in the caller's own words. -/
  | stated (text : String)

end

/-! ## Messages -/

/-- Text in double quotes, with backslash escapes for what would not show. -/
def shownText (s : String) : String :=
  "\"" ++ String.ofList (s.toList.flatMap fun c =>
    match c with
    | '\x22' => ['\\', '\x22']
    | '\\' => ['\\', '\\']
    | '\n' => ['\\', 'n']
    | '\r' => ['\\', 'r']
    | '\t' => ['\\', 't']
    | '\x00' => ['\\', '0']
    | c =>
      if c.toNat < 0x20 || c.toNat = 0x7F then
        '\\' :: 'u' :: '\x7b' :: Nat.toDigits 16 c.toNat ++ ['\x7d']
      else [c]) ++ "\""

/-- What a JSON value is, in words. -/
def foundText : Json → String
  | .null => "null"
  | .bool b => "boolean `" ++ (if b then "true" else "false") ++ "`"
  | .number (.int n) => "integer `" ++ toString n ++ "`"
  | .number (.double x) => "floating point `" ++ Json.doubleLayout.text x ++ "`"
  | .string s => "string " ++ shownText s
  | .array _ => "sequence"
  | .object _ => "map"

/-- Names in backticks, the last two joined by `or`. -/
def alternatives : List String → String
  | [] => ""
  | [name] => "`" ++ name ++ "`"
  | [first, second] => "`" ++ first ++ "` or `" ++ second ++ "`"
  | first :: rest => "`" ++ first ++ "`, " ++ alternatives rest

mutual

def QueryError.message : QueryError → String
  | .validation violation => violation.text
  | .relationNotFound name => "Relation " ++ name ++ " is not defined"
  | .malformedOperator operator expected =>
    "Expected " ++ expected.text ++ " for '" ++ operator ++ "' operator"
  | .unknownOperator name => "Unknown operator '" ++ name ++ "'"
  | .missingParameterValue name => "Missing value for parameter '" ++ name ++ "'"
  | .emptyQuery => "Query text is empty"
  | .invalidDescriptor mistake => "Invalid query descriptor: " ++ mistake.message

def Mistake.message : Mistake → String
  | .wrongType found wanted =>
    "invalid type: " ++ foundText found ++ ", expected " ++ wanted.text
  | .missingField name => "missing field `" ++ name ++ "`"
  | .duplicateField name => "duplicate field `" ++ name ++ "`"
  | .unknownVariant text variants =>
    "unknown variant `" ++ text ++ "`, expected " ++ alternatives variants
  | .missingItem index record size =>
    "invalid length " ++ Nat.repr index ++ ", expected " ++ record ++ " with " ++ Nat.repr size ++
      " elements"
  | .extraItems count =>
    "invalid length " ++ Nat.repr count ++ ", expected fewer elements in array"
  | .extraContent count size =>
    "invalid length " ++ Nat.repr count ++ ", expected " ++ Nat.repr size ++
      (if size = 1 then " element" else " elements") ++ " in sequence"
  | .notOneKey => "invalid value: map, expected map with a single key"
  | .overflow => "number out of range"
  | .columnForm => "data did not match any variant of untagged enum ColumnRepr"
  | .falseColumn => "a column must be `true` or a source expression"
  | .boundForm => "data did not match any variant of untagged enum Bound"
  | .predicate error => error.message
  | .stated text => text

end

/-- The error arises when parameters are bound, not when a descriptor is compiled. -/
def QueryError.isBinding : QueryError → Bool
  | .missingParameterValue _ | .emptyQuery => true
  | _ => false

end DescriptorSql
