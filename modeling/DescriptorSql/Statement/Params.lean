import DescriptorSql.Descriptor.Relation
import DescriptorSql.Descriptor.Query

/-!
# `Statement/Params.lean` — the parameters of the five operations

Each operation takes a table, what to do with it, and the catalog that the descriptor's relation
names refer to. Data is kept as the JSON it is, so that its shape is checked by the operation and
reported in its words.
-/

set_option autoImplicit false

namespace DescriptorSql

/-- A query over a table. -/
structure FindParams where
  table : String
  tableAlias : Option String
  query : SelectQuery
  relations : Catalog

/-- What to do with a row that conflicts, as a descriptor says it. -/
inductive ConflictRule where
  | doNothing
  | doUpdate (data : Entries String Json) (filter : Option Predicate)

/-- A conflict as a descriptor says it: the columns or the constraint, and the rule. -/
structure ConflictSpec where
  columns : Option (List String)
  constraint : Option String
  action : ConflictRule

/-- Rows for a table: one object, or an array of objects. -/
structure InsertParams where
  table : String
  data : Json
  returning : List String
  onConflict : Option ConflictSpec
  relations : Catalog

/-- New values for the rows that meet a condition. -/
structure UpdateParams where
  table : String
  data : Json
  filter : Option Predicate
  returning : List String
  relations : Catalog

/-- The rows that meet a condition. -/
structure DeleteParams where
  table : String
  filter : Option Predicate
  returning : List String
  relations : Catalog

end DescriptorSql
