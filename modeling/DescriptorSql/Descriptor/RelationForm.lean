import DescriptorSql.Descriptor.Record
import DescriptorSql.Descriptor.Relation

/-!
# `Descriptor/RelationForm.lean` — the written form of relations

How relations and catalogs are read, and how a relation is written back. The two-word fields have a
spelling with a low line besides the one with a capital.
-/

set_option autoImplicit false

namespace DescriptorSql

/-- The written names of the cardinalities. -/
def Cardinality.variants : List (String × Cardinality) := [("ONE", .one), ("MANY", .many)]

def Cardinality.name : Cardinality → String
  | .one => "ONE"
  | .many => "MANY"

namespace Junction

def form : RecordForm :=
  ⟨"struct Junction",
    [.named "table", .named "field", ⟨"referenceField", ["reference_field"]⟩]⟩

/-- A junction while it is read. -/
structure Draft where
  table : Option String := none
  field : Option String := none
  referenceField : Option String := none

def Draft.store (name : String) (value : Json) (draft : Draft) : Except Mistake Draft := do
  match name with
  | "table" => return { draft with table := ← readString value }
  | "field" => return { draft with field := ← readString value }
  | "referenceField" => return { draft with referenceField := ← readString value }
  | _ => return draft

def Draft.finish (style : RecordStyle) (draft : Draft) : Except Mistake Junction := do
  return {
    table := ← form.require style "table" draft.table
    field := ← form.require style "field" draft.field
    referenceField := ← form.require style "referenceField" draft.referenceField }

def ofJson? (format : SourceFormat) : Json → Except Mistake Junction :=
  form.read format Draft.store Draft.finish {}

/-- The junction as JSON. -/
def toJson (junction : Junction) : Json :=
  .object [("table", .string junction.table), ("field", .string junction.field),
    ("referenceField", .string junction.referenceField)]

end Junction

namespace Relation

def form : RecordForm :=
  ⟨"struct Relation",
    [.named "type", .named "table", .named "field", ⟨"referenceTable", ["reference_table"]⟩,
      ⟨"referenceField", ["reference_field"]⟩, ⟨"tableAlias", ["table_alias"]⟩,
      .named "junction"]⟩

/-- A relation while it is read. -/
structure Draft where
  cardinality : Cardinality := .one
  table : Option String := none
  field : Option String := none
  referenceTable : Option String := none
  referenceField : Option String := none
  tableAlias : Option String := none
  junction : Option Junction := none

def Draft.store (format : SourceFormat) (name : String) (value : Json) (draft : Draft) :
    Except Mistake Draft := do
  match name with
  | "type" => return { draft with cardinality := ← readVariant format Cardinality.variants value }
  | "table" => return { draft with table := ← readString value }
  | "field" => return { draft with field := ← readString value }
  | "referenceTable" => return { draft with referenceTable := ← readString value }
  | "referenceField" => return { draft with referenceField := ← readString value }
  | "tableAlias" => return { draft with tableAlias := ← readOptionalString value }
  | "junction" =>
    match value with
    | .null => return { draft with junction := none }
    | value => return { draft with junction := some (← Junction.ofJson? format value) }
  | _ => return draft

def Draft.finish (style : RecordStyle) (draft : Draft) : Except Mistake Relation := do
  return {
    cardinality := draft.cardinality
    table := ← form.require style "table" draft.table
    field := ← form.require style "field" draft.field
    referenceTable := ← form.require style "referenceTable" draft.referenceTable
    referenceField := ← form.require style "referenceField" draft.referenceField
    tableAlias := draft.tableAlias
    junction := draft.junction }

def ofJson? (format : SourceFormat) : Json → Except Mistake Relation :=
  form.read format (Draft.store format) Draft.finish {}

/-- The relation as JSON, without the fields that are not set. -/
def toJson (relation : Relation) : Json :=
  .object <|
    [("type", .string relation.cardinality.name), ("table", .string relation.table),
      ("field", .string relation.field), ("referenceTable", .string relation.referenceTable),
      ("referenceField", .string relation.referenceField)] ++
    (match relation.tableAlias with
      | some name => [("tableAlias", .string name)]
      | none => []) ++
    (match relation.junction with
      | some junction => [("junction", junction.toJson)]
      | none => [])

end Relation

def Catalog.ofJson? (format : SourceFormat) : Json → Except Mistake Catalog :=
  readMapOf (Relation.ofJson? format)

end DescriptorSql
