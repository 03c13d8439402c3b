import DescriptorSql.Sql.Token
import DescriptorSql.Descriptor.Relation
import DescriptorSql.Descriptor.Query

/-!
# `Sql/Link.lean` — relations in a statement

A relation shows up in three ways: as a join onto the query's table, as the source of a query over
the related rows, and as the condition that ties such a query to the row around it. All of them are
put together from the same few equalities: `correlation` ties the relation to its reference table,
and `junctionLink` ties a junction table to the target.
-/

set_option autoImplicit false

namespace DescriptorSql.Sql

def joinKeyword : JoinKind → Keyword
  | .left => .left
  | .right => .right
  | .inner => .inner
  | .full => .full

/-- ` KIND JOIN table ON condition`. -/
def joinOn (kind : JoinKind) (table condition : String) : String :=
  serialize (spaced
    [.keyword (joinKeyword kind), .keyword .join, .fragment table, .keyword .on,
      .fragment condition])

/-- The target table, under its alias if it has one. -/
def targetRef (relation : Relation) : String := tableRef relation.table relation.tableAlias

/-- The junction's column equals the target's column. -/
def junctionLink (relation : Relation) (junction : Junction) : String :=
  equate junction.table junction.field relation.targetName relation.field

/-- The condition that ties the relation's rows to a row of the reference table. It is on the
junction's column if there is a junction, and on the target's otherwise. -/
def correlation (relation : Relation) : String :=
  match relation.junction with
  | some junction =>
    equate junction.table junction.referenceField relation.referenceTable relation.referenceField
  | none =>
    equate relation.targetName relation.field relation.referenceTable relation.referenceField

/-- The relation joined onto the reference table, through its junction if it has one. -/
def relationJoin (kind : JoinKind) (relation : Relation) : String :=
  match relation.junction with
  | some junction =>
    joinOn kind (tableRef junction.table none) (correlation relation) ++
      joinOn kind (targetRef relation) (junctionLink relation junction)
  | none => joinOn kind (targetRef relation) (correlation relation)

/-- The junction with the target joined onto it, for a relation that has a junction. -/
def junctionSource? (relation : Relation) : Option String :=
  relation.junction.map fun junction =>
    tableRef junction.table none ++
      joinOn .left (targetRef relation) (junctionLink relation junction)

/-- What a query over the related rows reads from. -/
def relationSource (relation : Relation) : String :=
  (junctionSource? relation).getD (targetRef relation)

/-- A subquery joined row by row: ` LEFT JOIN LATERAL (subquery) ON TRUE`. An empty subquery joins
nothing. -/
def lateralJoin (subquery : String) : String :=
  if subquery.isEmpty then ""
  else
    serialize <|
      spaced [.keyword .left, .keyword .join, .keyword .lateral] ++
        .space :: parenthesized [.fragment subquery] ++
        spaced [.keyword .on, .keyword .truth]

end DescriptorSql.Sql
