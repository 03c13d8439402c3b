import DescriptorSql.Statement.Params
import DescriptorSql.Descriptor.RelationForm
import DescriptorSql.Descriptor.QueryForm

/-!
# `Statement/ParamsForm.lean` — the written form of parameters

Every operation's parameters are a record whose table is required and whose other fields have
defaults. The conflict rule is a tagged union: its `type` is read before its other fields, wherever
it stands.
-/

set_option autoImplicit false

namespace DescriptorSql

/-- A predicate or null. -/
def readOptionalFilter : Json → Except Mistake (Option Predicate)
  | .null => .ok none
  | value => some <$> asMistake (Predicate.ofJson? value)

/-! ## Find -/

namespace FindParams

def form : RecordForm :=
  ⟨"struct FindManyParams", ["table", "tableAlias", "query", "relations"].map .named⟩

/-- The parameters while they are read. -/
structure Draft where
  table : Option String := none
  tableAlias : Option String := none
  query : SelectQuery := .empty
  relations : Catalog := []

def Draft.store (name : String) (value : Json) (draft : Draft) : Except Mistake Draft := do
  match name with
  | "table" => return { draft with table := ← readString value }
  | "tableAlias" => return { draft with tableAlias := ← readOptionalString value }
  | "query" => return { draft with query := ← SelectQuery.ofJson? value }
  | "relations" => return { draft with relations := ← Catalog.ofJson? .json value }
  | _ => return draft

def Draft.finish (style : RecordStyle) (draft : Draft) : Except Mistake FindParams := do
  let table ← form.require style "table" draft.table
  return ⟨table, draft.tableAlias, draft.query, draft.relations⟩

def ofJson? : Json → Except Mistake FindParams :=
  form.read .json Draft.store Draft.finish {}

end FindParams

/-! ## Conflicts -/

namespace ConflictRule

/-- The tags of the rules; a rule that updates has content. -/
inductive Tag where
  | doNothing
  | doUpdate

def Tag.variants : List (String × Tag) := [("DO NOTHING", .doNothing), ("DO UPDATE", .doUpdate)]

def readTag : Json → Except Mistake Tag
  | .string text => variantOfName Tag.variants text
  | found => .error (.wrongType found .variantName)

def updateForm : RecordForm :=
  ⟨"struct variant ConflictActionSpec::DoUpdate", ["data", "where"].map .named⟩

structure Draft where
  data : Option (Entries String Json) := none
  filter : Option Predicate := none

def Draft.store (name : String) (value : Json) (draft : Draft) : Except Mistake Draft := do
  match name with
  | "data" => return { draft with data := some (← readMap value) }
  | "where" => return { draft with filter := ← readOptionalFilter value }
  | _ => return draft

def Draft.finish (style : RecordStyle) (draft : Draft) : Except Mistake ConflictRule := do
  return .doUpdate (← updateForm.require style "data" draft.data) draft.filter

/-- Refuses items that no field of a variant takes. -/
def checkContent (size : Nat) (items : List Json) : Except Mistake Unit :=
  if size < items.length then .error (.extraContent items.length size) else .ok ()

/-- Reads a rule: an object with the tag under `type`, or an array with the tag in front. -/
def ofJson? : Json → Except Mistake ConflictRule
  | .object members =>
    match Entries.get? members "type" with
    | none => .error (.missingField "type")
    | some tag => do
      match ← readTag tag with
      | .doNothing => return .doNothing
      | .doUpdate =>
        let draft ← updateForm.readMembers .json Draft.store members [] {}
        draft.finish .members
  | .array [] => .error (.missingField "type")
  | .array (tag :: items) => do
    match ← readTag tag with
    | .doNothing =>
      checkContent 0 items
      return .doNothing
    | .doUpdate =>
      let draft ← RecordForm.readItems Draft.store updateForm.names items {}
      let rule ← draft.finish .items
      checkContent updateForm.fields.length items
      return rule
  | found => .error (.wrongType found (.named "internally tagged enum ConflictActionSpec"))

end ConflictRule

namespace ConflictSpec

def form : RecordForm :=
  ⟨"struct OnConflictSpec", ["columns", "constraint", "action"].map .named⟩

/-- A conflict while it is read. -/
structure Draft where
  columns : Option (List String) := none
  constraint : Option String := none
  action : Option ConflictRule := none

def Draft.store (name : String) (value : Json) (draft : Draft) : Except Mistake Draft := do
  match name with
  | "columns" =>
    match value with
    | .null => return { draft with columns := none }
    | value => return { draft with columns := some (← readStrings value) }
  | "constraint" => return { draft with constraint := ← readOptionalString value }
  | "action" => return { draft with action := some (← ConflictRule.ofJson? value) }
  | _ => return draft

def Draft.finish (style : RecordStyle) (draft : Draft) : Except Mistake ConflictSpec := do
  return ⟨draft.columns, draft.constraint, ← form.require style "action" draft.action⟩

def ofJson? : Json → Except Mistake ConflictSpec :=
  form.read .json Draft.store Draft.finish {}

end ConflictSpec

/-! ## Insert -/

namespace InsertParams

def form (label : String) : RecordForm :=
  ⟨label,
    [.named "table", .named "data", ⟨"returning", ["select"]⟩, .named "onConflict",
      .named "relations"]⟩

/-- The parameters while they are read. -/
structure Draft where
  table : Option String := none
  data : Json := .null
  returning : List String := []
  onConflict : Option ConflictSpec := none
  relations : Catalog := []

def Draft.store (name : String) (value : Json) (draft : Draft) : Except Mistake Draft := do
  match name with
  | "table" => return { draft with table := ← readString value }
  | "data" => return { draft with data := value }
  | "returning" => return { draft with returning := ← readStrings value }
  | "onConflict" =>
    match value with
    | .null => return { draft with onConflict := none }
    | value => return { draft with onConflict := some (← ConflictSpec.ofJson? value) }
  | "relations" => return { draft with relations := ← Catalog.ofJson? .json value }
  | _ => return draft

def Draft.finish (label : String) (style : RecordStyle) (draft : Draft) :
    Except Mistake InsertParams := do
  let table ← (form label).require style "table" draft.table
  return ⟨table, draft.data, draft.returning, draft.onConflict, draft.relations⟩

def read (label : String) : Json → Except Mistake InsertParams :=
  (form label).read .json Draft.store (Draft.finish label) {}

def oneOfJson? : Json → Except Mistake InsertParams := read "struct InsertOneParams"

def manyOfJson? : Json → Except Mistake InsertParams := read "struct InsertManyParams"

end InsertParams

/-! ## Update -/

/-- The fields inside the `query` of an update or a delete. A delete has no data. -/
structure ChangeQuery where
  data : Json := .null
  filter : Option Predicate := none
  returning : List String := []

namespace ChangeQuery

def store (name : String) (value : Json) (query : ChangeQuery) : Except Mistake ChangeQuery := do
  match name with
  | "data" => return { query with data := value }
  | "where" => return { query with filter := ← readOptionalFilter value }
  | "returning" => return { query with returning := ← readStrings value }
  | _ => return query

def updateForm : RecordForm := ⟨"struct UpdateQuery", ["data", "where", "returning"].map .named⟩

def deleteForm : RecordForm := ⟨"struct DeleteQuery", ["where", "returning"].map .named⟩

def read (form : RecordForm) : Json → Except Mistake ChangeQuery :=
  form.read .json store (fun _ query => .ok query) {}

end ChangeQuery

/-- The parameters of an update or a delete while they are read. -/
structure ChangeDraft where
  table : Option String := none
  query : ChangeQuery := {}
  relations : Catalog := []

/-- Reads one field; `readQuery` reads the `query`. -/
def ChangeDraft.store (readQuery : Json → Except Mistake ChangeQuery) (name : String)
    (value : Json) (draft : ChangeDraft) : Except Mistake ChangeDraft := do
  match name with
  | "table" => return { draft with table := ← readString value }
  | "query" => return { draft with query := ← readQuery value }
  | "relations" => return { draft with relations := ← Catalog.ofJson? .json value }
  | _ => return draft

namespace UpdateParams

def form : RecordForm :=
  ⟨"struct UpdateManyParams", ["table", "query", "relations"].map .named⟩

def finish (style : RecordStyle) (draft : ChangeDraft) : Except Mistake UpdateParams := do
  let table ← form.require style "table" draft.table
  return ⟨table, draft.query.data, draft.query.filter, draft.query.returning, draft.relations⟩

def ofJson? : Json → Except Mistake UpdateParams :=
  form.read .json (ChangeDraft.store (ChangeQuery.read ChangeQuery.updateForm)) finish {}

end UpdateParams

/-! ## Delete -/

namespace DeleteParams

def form : RecordForm :=
  ⟨"struct DeleteManyParams", ["table", "query", "relations"].map .named⟩

/-- A query, or null for none. -/
def readQuery : Json → Except Mistake ChangeQuery
  | .null => .ok {}
  | value => ChangeQuery.read ChangeQuery.deleteForm value

def finish (style : RecordStyle) (draft : ChangeDraft) : Except Mistake DeleteParams := do
  let table ← form.require style "table" draft.table
  return ⟨table, draft.query.filter, draft.query.returning, draft.relations⟩

def ofJson? : Json → Except Mistake DeleteParams :=
  form.read .json (ChangeDraft.store readQuery) finish {}

end DeleteParams

end DescriptorSql
