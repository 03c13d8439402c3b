import DescriptorSql.Compile.Select
import DescriptorSql.Proofs.Descriptor.Traversal

/-!
# `Proofs/Descriptor/Places.lean` — the places where a descriptor meets the statement

A text of a descriptor gets into a statement in one of three ways: as a name, as a value, or as a
part of one of these, such as a column behind its table. Names and values are formatted
(`Place.text`), and a part is formatted only together with what it is a part of.
-/

set_option autoImplicit false

namespace DescriptorSql

/-- A text of a descriptor, and how it gets into a statement. -/
inductive Place where
  | name (text : String)
  | value (content : Json)
  | part (text : String)

/-- What is written. -/
def Place.text : Place → String
  | name text => Sql.identifier text
  | value content => Sql.literal content
  | part text => text

/-- The names of output columns are also the keys of the JSON object that a nested relation becomes,
and as keys they are parts of a literal. -/
def Harvest.places : Harvest Place where
  name text := [.name text]
  value content := [.value content]
  joined _ := []
  rows _ _ _ := []
  nested name query := .name name :: (Entries.keys query.outputColumns).map .part
  level levels := levels.flatMap Harvest.all

/-- The columns of a relation stand behind their tables. -/
def Relation.places (relation : Relation) : List Place :=
  [.name relation.table, .part relation.field, .name relation.referenceTable,
      .part relation.referenceField] ++
    relation.tableAlias.toList.map .name ++
    relation.junction.toList.flatMap fun junction =>
      [.name junction.table, .part junction.field, .part junction.referenceField]

def Catalog.places (catalog : Catalog) : List Place :=
  catalog.flatMap fun (_, relation) => relation.places

def Written.place : Written → Place
  | name text => .name text
  | value content => .value content

theorem Catalog.places_of_resolve {catalog : Catalog} {name : String} {relation : Relation}
    (h : catalog.resolve name = .ok relation) : relation.places ⊆ catalog.places := by
  unfold Catalog.resolve at h
  split at h
  · next found hfound =>
    cases h
    intro place hplace
    exact List.mem_flatMap.mpr ⟨_, Entries.mem_of_get? hfound, hplace⟩
  · cases h

end DescriptorSql
