import DescriptorSql.Entries
import DescriptorSql.Descriptor.Error

/-!
# `Descriptor/Relation.lean` — relations and their catalog

A relation says how the rows of a table hang off the rows of another one: a column of the target
equals a column of the reference table, directly or through a junction table. Descriptors name
relations, and the catalog gives the names their meaning.
-/

set_option autoImplicit false

namespace DescriptorSql

/-- Whether a row has one related row or many. -/
inductive Cardinality where
  | one
  | many
  deriving DecidableEq, Repr

/-- A table between the two sides of a relation: `field` points at the target, `referenceField` at
the reference table. -/
structure Junction where
  table : String
  field : String
  referenceField : String
  deriving DecidableEq, Repr

/-- A link from a reference table to a target table. -/
structure Relation where
  cardinality : Cardinality
  table : String
  field : String
  referenceTable : String
  referenceField : String
  tableAlias : Option String
  junction : Option Junction
  deriving DecidableEq, Repr

namespace Relation

/-- The name that the target's columns are qualified with: the alias, or else the table. -/
def targetName (relation : Relation) : String := relation.tableAlias.getD relation.table

/-- A row has many related rows. -/
def isMany (relation : Relation) : Bool := relation.cardinality = .many

end Relation

abbrev Catalog := Entries String Relation

def Catalog.resolve (catalog : Catalog) (name : String) : Except QueryError Relation :=
  match Entries.get? catalog name with
  | some relation => .ok relation
  | none => .error (.relationNotFound name)

end DescriptorSql
