import DescriptorSql.Statement.Params
import DescriptorSql.Compile.Select
import DescriptorSql.Sql.Insert
import DescriptorSql.Sql.Update

/-!
# `Statement/Operation.lean` — the five operations

Each operation checks its parameters and compiles them to one statement: `find`, `insertOne`,
`insertMany`, `update`, `delete`. The checks come in a fixed order, the table first, so of two
defects the earlier check reports.
-/

set_option autoImplicit false

namespace DescriptorSql

/-- Refuses a blank table name. -/
def checkTable (table : String) : Except QueryError Unit :=
  if Text.isBlankText table then .error (.validation .blankTable) else .ok ()

/-- A condition from a predicate that may be absent. A predicate that says nothing is no
condition. -/
def conditionText (catalog : Catalog) (filter : Option Predicate) :
    Except QueryError (Option String) :=
  match filter with
  | none => .ok none
  | some predicate => (fun sql => Sql.present (some sql)) <$> predicate.toSql catalog .and

/-- The members of an object that has some, or a violation. -/
def checkMembers (violation : Violation) (data : Json) :
    Except QueryError (Entries String Json) :=
  match data.nonemptyMembers? with
  | some members => .ok members
  | none => .error (.validation violation)

/-! ## Find -/

def FindParams.find (params : FindParams) : Except QueryError String := do
  checkTable params.table
  params.query.toSql params.relations params.table params.tableAlias {}

/-! ## Insert -/

namespace ConflictSpec

/-- The target: a list of columns that is not empty, or a constraint that is not blank, but not
both. -/
def target (spec : ConflictSpec) : Except QueryError Sql.ConflictTarget :=
  match spec.columns, spec.constraint with
  | some (first :: rest), none => .ok (.columns (first :: rest))
  | none, some name =>
    if Text.isBlankText name then .error (.validation .conflictTarget)
    else .ok (.constraint name)
  | _, _ => .error (.validation .conflictTarget)

/-- The rule; an update has to assign something. -/
def rule (catalog : Catalog) : ConflictRule → Except QueryError Sql.ConflictAction
  | .doNothing => .ok .doNothing
  | .doUpdate [] _ => .error (.validation .updateData)
  | .doUpdate data filter => .doUpdate data <$> conditionText catalog filter

/-- The ON CONFLICT clause. -/
def clause (catalog : Catalog) (spec : ConflictSpec) : Except QueryError Sql.OnConflict := do
  let target ← spec.target
  let action ← rule catalog spec.action
  return ⟨target, action⟩

end ConflictSpec

namespace InsertParams

def statement (params : InsertParams) (columns : List String) (rows : List (List Json)) :
    Except QueryError String := do
  let conflict ← params.onConflict.mapM (ConflictSpec.clause params.relations)
  let insert : Sql.Insert := ⟨params.table, columns, rows, conflict, params.returning⟩
  return insert.toSql

/-- An INSERT statement for one object. -/
def insertOne (params : InsertParams) : Except QueryError String := do
  checkTable params.table
  let members ← checkMembers .insertData params.data
  params.statement (Entries.keys members) [Entries.values members]

/-- The values of one object for some columns; a column that the object lacks is null. -/
def rowValues (columns : List String) : Json → Except QueryError (List Json)
  | .object members => .ok (columns.map fun column => (Entries.get? members column).getD .null)
  | _ => .error (.validation .insertRows)

/-- An INSERT statement for an array of objects. The first one decides on the columns. -/
def insertMany (params : InsertParams) : Except QueryError String := do
  checkTable params.table
  match params.data with
  | .array (first :: rest) =>
    let columns := Entries.keys (← checkMembers .insertRows first)
    let rows ← (first :: rest).mapM (rowValues columns)
    params.statement columns rows
  | _ => throw (.validation .insertRows)

end InsertParams

/-! ## Update and delete -/

def UpdateParams.update (params : UpdateParams) : Except QueryError String := do
  checkTable params.table
  let assigned ← checkMembers .updateData params.data
  let filter ← conditionText params.relations params.filter
  let update : Sql.Update := ⟨params.table, assigned, filter, params.returning⟩
  return update.toSql

def DeleteParams.delete (params : DeleteParams) : Except QueryError String := do
  checkTable params.table
  let filter ← conditionText params.relations params.filter
  let delete : Sql.Delete := ⟨params.table, filter, params.returning⟩
  return delete.toSql

end DescriptorSql
