import DescriptorSql.Entries
import DescriptorSql.Json.Basic
import DescriptorSql.Descriptor.Operator

/-!
# `Descriptor/Query.lean` — predicates and queries

A predicate is an ordered map of conditions, and a condition may hold predicates and subqueries,
which hold predicates again: the types are one family. A query and a subquery share everything but
two things, so the shared part is a type of its own (`QueryBody`): a query adds the relations nested
into its rows, and a subquery may name its own table.

The maps inside the family are plain lists of entries, so that functions on it recurse on their
argument.
-/

set_option autoImplicit false

namespace DescriptorSql

/-- Where an output column comes from: the column of the same name, or an expression. -/
inductive Column where
  | reuse
  | source (text : String)
  deriving DecidableEq, Repr

abbrev Columns := Entries String Column

inductive SortDir where
  | asc
  | desc
  deriving DecidableEq, Repr

/-- A row count, or a placeholder for one. -/
inductive Bound where
  | count (n : Nat)
  | placeholder (text : String)
  deriving DecidableEq, Repr

/-- The kinds of join that a query can ask for. -/
inductive JoinKind where
  | left
  | right
  | inner
  | full
  deriving DecidableEq, Repr

mutual

/-- An ordered map of conditions. What joins them is up to the place where the predicate stands. -/
inductive Predicate where
  | ofEntries (entries : List (String × Condition))

/-- What one key of a predicate demands. -/
inductive Condition where
  /-- One of the branches holds. -/
  | anyOf (branches : List Predicate)
  /-- All of the branches hold. -/
  | allOf (branches : List Predicate)
  | negation (inner : Predicate)
  /-- Every named relation has a row. -/
  | existence (entries : List (String × ExistsBody))
  /-- The key's column equals a value. -/
  | equals (value : Json)
  /-- Each operator holds between the key's column and its operand. -/
  | comparisons (entries : List (Operator × Operand))

/-- Which rows of a relation count. -/
inductive ExistsBody where
  | anyRow
  | rowsOf (query : SubQuery)

/-- The right-hand side of an operator. -/
inductive Operand where
  | value (value : Json)
  | list (items : List Json)
  | subqueries (entries : List (String × SubQuery))
  | quantified (groups : List (Quantifier × List (String × SubQuery)))

/-- A join whose columns go to the row of the query itself. -/
structure JoinQuery where
  select : List (String × Column)
  filter : Option Predicate

/-- What a query and a subquery have in common. -/
structure QueryBody where
  select : List (String × Column)
  filter : Option Predicate
  groupBy : List String
  having : Option Predicate
  orderBy : List (String × SortDir)
  limit : Option Bound
  offset : Option Bound
  leftJoin : List (String × JoinQuery)
  rightJoin : List (String × JoinQuery)
  innerJoin : List (String × JoinQuery)
  fullJoin : List (String × JoinQuery)

/-- A query inside a predicate. With a table of its own it is independent of the catalog. -/
structure SubQuery where
  table : Option String
  body : QueryBody

end

/-- A query, with the relations that are nested into its rows as JSON. -/
inductive SelectQuery where
  | mk (body : QueryBody) (includes : List (String × SelectQuery))

/-! ## Empty descriptors -/

def Predicate.empty : Predicate := .ofEntries []

def Predicate.entries : Predicate → Entries String Condition
  | .ofEntries entries => entries

/-- No clause. -/
def QueryBody.empty : QueryBody :=
  ⟨[], none, [], none, [], none, none, [], [], [], []⟩

/-- The joins in the order in which they are written to a statement. -/
def QueryBody.joins (body : QueryBody) : List (JoinKind × String × JoinQuery) :=
  body.leftJoin.map (.left, ·) ++ body.rightJoin.map (.right, ·) ++
    body.innerJoin.map (.inner, ·) ++ body.fullJoin.map (.full, ·)

def JoinQuery.empty : JoinQuery := ⟨[], none⟩

/-- Every row of the relation. -/
def SubQuery.empty : SubQuery := ⟨none, QueryBody.empty⟩

namespace SelectQuery

/-- Every column, no clause. -/
def empty : SelectQuery := .mk QueryBody.empty []

def body : SelectQuery → QueryBody
  | .mk body _ => body

def includes : SelectQuery → Entries String SelectQuery
  | .mk _ includes => includes

end SelectQuery

/-- The query that a subquery stands for: nothing is nested. -/
def SubQuery.toSelectQuery (query : SubQuery) : SelectQuery := .mk query.body []

/-- The query that an existence test stands for. -/
def ExistsBody.toSubQuery : ExistsBody → SubQuery
  | .anyRow => SubQuery.empty
  | .rowsOf query => query

end DescriptorSql
