import DescriptorSql.Compile.Condition

/-!
# `Compile/Select.lean` — queries as SELECT statements

A query's own part is expanded as a subquery's is; what it adds are the nested relations. Each of
them is joined by a lateral subquery that turns the related rows into JSON: one object, or an array
of objects (`nestedStatement`). The lateral joins come before the others.
-/

set_option autoImplicit false

namespace DescriptorSql

/-- The lateral subquery of a nested relation. The related rows are read as in an existence test;
the columns become one object, and the objects of a relation with many rows are aggregated. -/
def nestedStatement (key : String) (relation : Relation) (query : SelectQuery)
    (expansion : Expansion) : String :=
  let body := selectStatement (query.outputColumns.objectList key) (Sql.relationSource relation)
    query.body expansion (.condition (Sql.correlation relation))
  let name := Sql.identifier key
  if relation.isMany then
    "SELECT jsonb_agg(" ++ name ++ ") AS " ++ name ++ " FROM (" ++ body ++ ") "
  else
    "SELECT " ++ name ++ " FROM (" ++ body ++ ") "

mutual

def SelectQuery.expand (catalog : Catalog) : SelectQuery → Except QueryError Expansion
  | .mk body includes => do
    let laterals ← includesText catalog includes
    let expansion ← expandBody catalog body
    return { expansion with joins := laterals ++ expansion.joins }

/-- The lateral joins of nested relations. -/
def includesText (catalog : Catalog) : List (String × SelectQuery) → Except QueryError String
  | [] => .ok ""
  | (name, query) :: rest => do
    let relation ← catalog.resolve name
    let expansion ← query.expand catalog
    let others ← includesText catalog rest
    return Sql.lateralJoin (nestedStatement name relation query expansion) ++ others

end

/-- A query over a table as a SELECT statement. -/
def SelectQuery.toSql (catalog : Catalog) (table : String) (alias? : Option String)
    (query : SelectQuery) (append : Sql.Append) : Except QueryError String := do
  let expansion ← query.expand catalog
  return selectStatement query.outputColumns.selectList (Sql.tableRef table alias?) query.body
    expansion append

/-- A query over the rows of a relation as a lateral subquery. -/
def SelectQuery.toNestedSql (catalog : Catalog) (key : String) (relation : Relation)
    (query : SelectQuery) : Except QueryError String :=
  nestedStatement key relation query <$> query.expand catalog

end DescriptorSql
