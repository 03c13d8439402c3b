import DescriptorSql.Descriptor.Query
import DescriptorSql.Sql.Literal

/-!
# `Compile/Columns.lean` — the output columns of a query

A query outputs its own columns, then a column for every nested relation, then the columns of its
joins. They are written into one ordered map, so a name that comes up again keeps its place and
takes the later source. A nested query outputs the same columns as one JSON object.
-/

set_option autoImplicit false

namespace DescriptorSql

/-- The columns of a body under a select list, with a column for every name in `nested`. -/
def QueryBody.outputColumns (body : QueryBody) (select : Columns) (nested : List String) :
    Columns :=
  Entries.merge select
    (nested.map (·, Column.reuse) ++ body.joins.flatMap fun (_, _, join) => join.select)

/-- An output column is selected, is a nested relation's or is selected by a join. -/
theorem QueryBody.mem_outputColumns (body : QueryBody) {select : Columns} {nested : List String}
    {entry : String × Column} (h : entry ∈ body.outputColumns select nested) :
    entry ∈ select ∨ (∃ name ∈ nested, entry = (name, Column.reuse)) ∨
      ∃ join ∈ body.joins, entry ∈ join.2.2.select := by
  rcases Entries.mem_or_mem_of_mem_merge h with h | h
  · exact Or.inl h
  · rcases List.mem_append.mp h with h | h
    · obtain ⟨name, hname, rfl⟩ := List.mem_map.mp h
      exact Or.inr (Or.inl ⟨name, hname, rfl⟩)
    · exact Or.inr (Or.inr (List.mem_flatMap.mp h))

def SelectQuery.outputColumns (query : SelectQuery) : Columns :=
  query.body.outputColumns query.body.select (Entries.keys query.includes)

/-- The source of a column, as it stands in a statement. -/
def Column.sourceText (name : String) : Column → String
  | .reuse => Sql.identifier name
  | .source text => Sql.identifier text

def Column.selectText (name : String) : Column → String
  | .reuse => Sql.identifier name
  | .source text => Sql.identifier text ++ " AS " ++ Sql.identifier name

/-- The select list of a query; without columns it selects everything. -/
def Columns.selectList (columns : Columns) : String :=
  if columns.isEmpty then "*"
  else ", ".intercalate (columns.map fun (name, column) => column.selectText name)

/-- The columns as one JSON object, in an output column of its own. -/
def Columns.objectList (columns : Columns) (key : String) : String :=
  let pairs := columns.map fun (name, column) =>
    Sql.quoteText name ++ ", " ++ column.sourceText name
  "jsonb_build_object(" ++ ", ".intercalate pairs ++ ") AS " ++ Sql.identifier key

end DescriptorSql
