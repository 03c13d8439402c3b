import DescriptorSql.Descriptor.Record
import DescriptorSql.Descriptor.Query

/-!
# `Descriptor/QueryForm.lean` — the written form of predicates and queries

A predicate is an object. Four of its keys are words (`OR`, `AND`, `NOT`, `exists`); under any other
key an object is a map of operators, and anything else is a value to be equal to. Its entries are
read in order, each on its own, so the first entry that cannot be read decides the error
(`Predicate.ofJson?`).

Queries, subqueries and joins are records in which every field has a default. They hold predicates
and predicates hold them, so all are read by one family of functions on the JSON value. A record
written as an object and one written as an array differ only in where the names of the fields come
from; what each field does with its value is said once (`storeBodyField`). That function gets the
two recursive readings of the value unevaluated, and runs the one that the field asks for.
-/

set_option autoImplicit false

namespace DescriptorSql

/-! ## Parts without predicates -/

/-- An output column: `true`, or the text of its source. -/
def readColumn : Json → Except Mistake Column
  | .bool true => .ok .reuse
  | .bool false => .error .falseColumn
  | .string text => .ok (.source text)
  | _ => .error .columnForm

/-- Output columns. -/
def readColumns : Json → Except Mistake Columns := readMapOf readColumn

def SortDir.variants : List (String × SortDir) := [("ASC", .asc), ("DESC", .desc)]

def readOrder : Json → Except Mistake (Entries String SortDir) :=
  readMapOf (readVariant .json SortDir.variants)

/-- A row count that fits an unsigned word, a placeholder, or null. -/
def readBound : Json → Except Mistake (Option Bound)
  | .null => .ok none
  | .string text => .ok (some (.placeholder text))
  | .number (.int (.ofNat n)) =>
    if n < Nat.pow 2 64 then .ok (some (.count n)) else .error .boundForm
  | _ => .error .boundForm

/-! ## The forms -/

def JoinQuery.form : RecordForm := ⟨"struct JoinQuery", [.named "select", .named "where"]⟩

def SubQuery.form : RecordForm :=
  ⟨"struct SubQuery",
    ["table", "select", "where", "groupBy", "having", "orderBy", "limit", "offset", "leftJoin",
      "rightJoin", "innerJoin", "fullJoin"].map .named⟩

def SelectQuery.form : RecordForm :=
  ⟨"struct SelectQuery",
    ["select", "where", "include", "groupBy", "having", "orderBy", "limit", "offset", "leftJoin",
      "rightJoin", "innerJoin", "fullJoin"].map .named⟩

/-- What the key of a predicate's entry says about its value. -/
inductive EntryKey where
  | anyOf
  | allOf
  | negation
  | existence
  | column
  deriving DecidableEq, Repr

/-- The four words; every other key names a column. -/
def EntryKey.ofText : String → EntryKey
  | "OR" => .anyOf
  | "AND" => .allOf
  | "NOT" => .negation
  | "exists" => .existence
  | _ => .column

/-- Reads one field of a query's body. `filter` and `joins` are the readings of `value` as a
predicate and as joins. -/
def storeBodyField (name : String) (value : Json)
    (filter : Unit → Except Mistake (Option Predicate))
    (joins : Unit → Except Mistake (List (String × JoinQuery))) (body : QueryBody) :
    Except Mistake QueryBody := do
  match name with
  | "select" => return { body with select := ← readColumns value }
  | "where" => return { body with filter := ← filter () }
  | "groupBy" => return { body with groupBy := ← readStrings value }
  | "having" => return { body with having := ← filter () }
  | "orderBy" => return { body with orderBy := ← readOrder value }
  | "limit" => return { body with limit := ← readBound value }
  | "offset" => return { body with offset := ← readBound value }
  | "leftJoin" => return { body with leftJoin := ← joins () }
  | "rightJoin" => return { body with rightJoin := ← joins () }
  | "innerJoin" => return { body with innerJoin := ← joins () }
  | "fullJoin" => return { body with fullJoin := ← joins () }
  | _ => return body

def storeSubQueryField (name : String) (value : Json)
    (filter : Unit → Except Mistake (Option Predicate))
    (joins : Unit → Except Mistake (List (String × JoinQuery))) (query : SubQuery) :
    Except Mistake SubQuery := do
  match name with
  | "table" => return { query with table := ← readOptionalString value }
  | name => return { query with body := ← storeBodyField name value filter joins query.body }

def storeJoinField (name : String) (value : Json)
    (filter : Unit → Except Mistake (Option Predicate)) (join : JoinQuery) :
    Except Mistake JoinQuery := do
  match name with
  | "select" => return { join with select := ← readColumns value }
  | "where" => return { join with filter := ← filter () }
  | _ => return join

/-- An error of a predicate, as a mistake of the record that holds it. -/
def asMistake {α : Type} : Except QueryError α → Except Mistake α
  | .ok value => .ok value
  | .error error => .error (.predicate error)

/-- A mistake in a record, as an error of the predicate that holds it. -/
def asInvalid {α : Type} : Except Mistake α → Except QueryError α
  | .ok value => .ok value
  | .error mistake => .error (.invalidDescriptor mistake)

/-! ## Predicates, subqueries and joins -/

mutual

def readEntries : List (String × Json) → Except QueryError (List (String × Condition))
  | [] => .ok []
  | (key, value) :: rest => do
    let condition ← readCondition key value
    let conditions ← readEntries rest
    return (key, condition) :: conditions

def readCondition (key : String) (value : Json) : Except QueryError Condition :=
  match EntryKey.ofText key, value with
  | .anyOf, .array items => .anyOf <$> readBranches items
  | .anyOf, _ => .error (.malformedOperator key .branches)
  | .allOf, .array items => .allOf <$> readBranches items
  | .allOf, _ => .error (.malformedOperator key .branches)
  | .negation, .object members => (.negation ∘ .ofEntries) <$> readEntries members
  | .negation, _ => .error (.validation .predicateForm)
  | .existence, .object members => .existence <$> readExistence members
  | .existence, _ => .error (.malformedOperator key .relations)
  | .column, .object members => .comparisons <$> readComparisons members
  | .column, value => .ok (.equals value)

def readBranches : List Json → Except QueryError (List Predicate)
  | [] => .ok []
  | .object members :: rest => do
    let entries ← readEntries members
    let branches ← readBranches rest
    return .ofEntries entries :: branches
  | _ :: _ => .error (.validation .predicateForm)

def readExistence : List (String × Json) → Except QueryError (List (String × ExistsBody))
  | [] => .ok []
  | (name, .bool true) :: rest => do
    let entries ← readExistence rest
    return (name, .anyRow) :: entries
  | (name, .object members) :: rest => do
    let query ← asInvalid (readSubQueryMembers members SubQuery.empty)
    let entries ← readExistence rest
    return (name, .rowsOf query) :: entries
  | _ :: _ => .error (.malformedOperator "exists" .existsBody)

def readComparisons : List (String × Json) → Except QueryError (List (Operator × Operand))
  | [] => .ok []
  | (name, value) :: rest =>
    match Operator.ofName? name with
    | none => .error (.unknownOperator name)
    | some operator => do
      let operand ← readOperand operator value
      let comparisons ← readComparisons rest
      return (operator, operand) :: comparisons

def readOperand (operator : Operator) (value : Json) : Except QueryError Operand :=
  if operator.isMembership then
    match value with
    | .array items => .ok (.list items)
    | .object members => .subqueries <$> readSubQueries members
    | _ => .error (.malformedOperator operator.name .listOrSubqueries)
  else if operator.isRange then
    match value with
    | .array items => .ok (.list items)
    | _ => .error (.malformedOperator operator.name .pair)
  else
    match value with
    | .object members => .quantified <$> readQuantified operator members
    | .array items => .ok (.list items)
    | value => .ok (.value value)

def readQuantified (operator : Operator) :
    List (String × Json) → Except QueryError (List (Quantifier × List (String × SubQuery)))
  | [] => .ok []
  | (name, value) :: rest =>
    match Quantifier.ofName? name, value with
    | none, _ => .error (.malformedOperator operator.name .valueOrQuantified)
    | some quantifier, .object members => do
      let queries ← readSubQueries members
      let groups ← readQuantified operator rest
      return (quantifier, queries) :: groups
    | some _, _ => .error (.malformedOperator operator.name .subqueries)

def readSubQueries : List (String × Json) → Except QueryError (List (String × SubQuery))
  | [] => .ok []
  | (name, .object members) :: rest => do
    let query ← asInvalid (readSubQueryMembers members SubQuery.empty)
    let queries ← readSubQueries rest
    return (name, query) :: queries
  | (name, .array items) :: rest => do
    let query ← asInvalid (readSubQueryItems items.length SubQuery.form.names items SubQuery.empty)
    let queries ← readSubQueries rest
    return (name, query) :: queries
  | (_, found) :: _ =>
    .error (.invalidDescriptor (.wrongType found (.named SubQuery.form.label)))

/-- A subquery written as an object. -/
def readSubQueryMembers : List (String × Json) → SubQuery → Except Mistake SubQuery
  | [], query => .ok query
  | (name, value) :: rest, query => do
    let query ← storeSubQueryField name value (fun _ => readFilter value)
      (fun _ => readJoins value) query
    readSubQueryMembers rest query

/-- A subquery written as an array of `count` items. -/
def readSubQueryItems (count : Nat) :
    List String → List Json → SubQuery → Except Mistake SubQuery
  | _, [], query => .ok query
  | [], _ :: _, _ => .error (.extraItems count)
  | name :: names, value :: rest, query => do
    let query ← storeSubQueryField name value (fun _ => readFilter value)
      (fun _ => readJoins value) query
    readSubQueryItems count names rest query

def readFilter : Json → Except Mistake (Option Predicate)
  | .null => .ok none
  | .object members => (some ∘ .ofEntries) <$> asMistake (readEntries members)
  | _ => .error (.predicate (.validation .predicateForm))

def readJoins : Json → Except Mistake (List (String × JoinQuery))
  | .object members => readJoinEntries members
  | found => .error (.wrongType found .map)

def readJoinEntries : List (String × Json) → Except Mistake (List (String × JoinQuery))
  | [] => .ok []
  | (name, .object members) :: rest => do
    let join ← readJoinMembers members JoinQuery.empty
    let joins ← readJoinEntries rest
    return (name, join) :: joins
  | (name, .array items) :: rest => do
    let join ← readJoinItems items.length JoinQuery.form.names items JoinQuery.empty
    let joins ← readJoinEntries rest
    return (name, join) :: joins
  | (_, found) :: _ => .error (.wrongType found (.named JoinQuery.form.label))

/-- A join written as an object. -/
def readJoinMembers : List (String × Json) → JoinQuery → Except Mistake JoinQuery
  | [], join => .ok join
  | (name, value) :: rest, join => do
    let join ← storeJoinField name value (fun _ => readFilter value) join
    readJoinMembers rest join

/-- A join written as an array of `count` items. -/
def readJoinItems (count : Nat) : List String → List Json → JoinQuery → Except Mistake JoinQuery
  | _, [], join => .ok join
  | [], _ :: _, _ => .error (.extraItems count)
  | name :: names, value :: rest, join => do
    let join ← storeJoinField name value (fun _ => readFilter value) join
    readJoinItems count names rest join

end

def Predicate.ofJson? : Json → Except QueryError Predicate
  | .object members => .ofEntries <$> readEntries members
  | _ => .error (.validation .predicateForm)

def SubQuery.ofJson? : Json → Except Mistake SubQuery
  | .object members => readSubQueryMembers members SubQuery.empty
  | .array items => readSubQueryItems items.length SubQuery.form.names items SubQuery.empty
  | found => .error (.wrongType found (.named SubQuery.form.label))

def JoinQuery.ofJson? : Json → Except Mistake JoinQuery
  | .object members => readJoinMembers members JoinQuery.empty
  | .array items => readJoinItems items.length JoinQuery.form.names items JoinQuery.empty
  | found => .error (.wrongType found (.named JoinQuery.form.label))

/-! ## Queries -/

/-- Reads one field of a query. `includes` is the reading of `value` as nested queries. -/
def storeQueryField (name : String) (value : Json)
    (includes : Unit → Except Mistake (List (String × SelectQuery))) :
    SelectQuery → Except Mistake SelectQuery
  | .mk body nested => do
    match name with
    | "include" => return .mk body (← includes ())
    | name =>
      let body ← storeBodyField name value (fun _ => readFilter value) (fun _ => readJoins value)
        body
      return .mk body nested

mutual

def readIncludes : Json → Except Mistake (List (String × SelectQuery))
  | .object members => readIncludeEntries members
  | found => .error (.wrongType found .map)

def readIncludeEntries : List (String × Json) → Except Mistake (List (String × SelectQuery))
  | [] => .ok []
  | (name, .object members) :: rest => do
    let query ← readQueryMembers members SelectQuery.empty
    let queries ← readIncludeEntries rest
    return (name, query) :: queries
  | (name, .array items) :: rest => do
    let query ← readQueryItems items.length SelectQuery.form.names items SelectQuery.empty
    let queries ← readIncludeEntries rest
    return (name, query) :: queries
  | (_, found) :: _ => .error (.wrongType found (.named SelectQuery.form.label))

/-- A query written as an object. -/
def readQueryMembers : List (String × Json) → SelectQuery → Except Mistake SelectQuery
  | [], query => .ok query
  | (name, value) :: rest, query => do
    let query ← storeQueryField name value (fun _ => readIncludes value) query
    readQueryMembers rest query

/-- A query written as an array of `count` items. -/
def readQueryItems (count : Nat) :
    List String → List Json → SelectQuery → Except Mistake SelectQuery
  | _, [], query => .ok query
  | [], _ :: _, _ => .error (.extraItems count)
  | name :: names, value :: rest, query => do
    let query ← storeQueryField name value (fun _ => readIncludes value) query
    readQueryItems count names rest query

end

def SelectQuery.ofJson? : Json → Except Mistake SelectQuery
  | .object members => readQueryMembers members SelectQuery.empty
  | .array items => readQueryItems items.length SelectQuery.form.names items SelectQuery.empty
  | found => .error (.wrongType found (.named SelectQuery.form.label))

end DescriptorSql
