import DescriptorSql.Compile.Condition
import DescriptorSql.Proofs.Reading.Formula

/-!
# `Proofs/Reading/Predicate.lean` — what a predicate prescribes

The formula of a predicate, said without reference to text. Its atoms are the comparisons and the
subqueries, one each. A group connects its branches, and the entries of each branch, by its own
connective; a negation negates the conjunction of its entries; existence tests hold together;
everything else is connected by the connective of the place where the predicate stands. What
prescribes nothing is left out.
-/

set_option autoImplicit false

namespace DescriptorSql

/-! ## Atoms -/

inductive Atom where
  /-- An operator between a column and a value; a list of values is an array. -/
  | comparison (field : String) (operator : Operator) (value : Json)
  /-- An operator between a column and the rows of a subquery, some or all of them if there is a
  quantifier. -/
  | rows (field : String) (operator : Operator) (quantifier? : Option Quantifier) (name : String)
      (query : SubQuery)
  | existence (name : String) (body : ExistsBody)

/-- A subquery behind its keyword. -/
def SubQuery.text (catalog : Catalog) (kind : SubQueryKind) (name : String) (query : SubQuery) :
    Except QueryError String := do
  let place ← subQueryPlace catalog name query.table
  let expansion ← expandBody catalog query.body
  return subQueryText kind place query.body expansion

def valueText (field : String) (operator : Operator) (value : Json) : Except QueryError String :=
  if operator.isRange then
    match value with
    | .array [low, high] =>
      .ok (comparisonText field operator (Sql.literal low ++ " AND " ++ Sql.literal high))
    | _ => .error (.malformedOperator operator.name .pair)
  else .ok (comparisonText field operator (Sql.literal value))

/-- The text of an atom. Blanks around an atom are no part of it. -/
def Atom.text (catalog : Catalog) : Atom → Except QueryError String
  | .comparison field operator value => Text.trim <$> valueText field operator value
  | .rows field operator none name query => do
    let rows ← query.text catalog (.rows operator.sql) name
    return Text.trim (Sql.identifier field ++ " " ++ rows)
  | .rows field operator (some quantifier) name query => do
    let rows ← query.text catalog (.rows quantifier.sql) name
    return Text.trim (comparisonText field operator rows)
  | .existence name body => Text.trim <$> body.toSubQuery.text catalog .existence name

/-! ## Formulas -/

def Operand.atoms (field : String) (operator : Operator) : Operand → List Atom
  | .value content => [.comparison field operator content]
  | .list items => [.comparison field operator (.array items)]
  | .subqueries queries => queries.map fun (name, query) => .rows field operator none name query
  | .quantified groups =>
    groups.flatMap fun (quantifier, queries) =>
      queries.map fun (name, query) => .rows field operator (some quantifier) name query

mutual

/-- What the entries of a predicate prescribe, one after the other. -/
def entryFormulas : List (String × Condition) → List (Formula Atom)
  | [] => []
  | (field, condition) :: rest => condition.formulas field ++ entryFormulas rest

def Condition.formulas (field : String) : Condition → List (Formula Atom)
  | .anyOf branches => (Connective.or.chain (branchFormulas .or branches)).toList
  | .allOf branches => (Connective.and.chain (branchFormulas .and branches)).toList
  | .negation (.ofEntries entries) =>
    (Connective.and.chain (entryFormulas entries)).toList.map .negation
  | .existence entries =>
    (Connective.and.chain (entries.map fun (name, body) => .atom (.existence name body))).toList
  | .equals value => [.atom (.comparison field .equals value)]
  | .comparisons entries =>
    entries.flatMap fun (operator, operand) => (operand.atoms field operator).map .atom

def branchFormulas (connective : Connective) : List Predicate → List (Formula Atom)
  | [] => []
  | .ofEntries entries :: rest =>
    (connective.chain (entryFormulas entries)).toList ++ branchFormulas connective rest

end

/-- What a predicate prescribes, its entries connected by a connective. -/
def Predicate.formula (connective : Connective) (predicate : Predicate) : Option (Formula Atom) :=
  connective.chain (entryFormulas predicate.entries)

end DescriptorSql
