import DescriptorSql.Proofs.Descriptor.Traversal
import DescriptorSql.Statement.Operation

/-!
# `Proofs/Statement/Written.lean` — what a statement writes

The five operations as one (`Statement`), and all the names and values that go into the statement of
each of them (`Statement.written`).
-/

set_option autoImplicit false

namespace DescriptorSql

/-! ## The five operations -/

/-- The parameters of one of the operations. -/
inductive Statement where
  | find (params : FindParams)
  | insertOne (params : InsertParams)
  | insertMany (params : InsertParams)
  | update (params : UpdateParams)
  | delete (params : DeleteParams)

def Statement.compile : Statement → Except QueryError String
  | find params => params.find
  | insertOne params => params.insertOne
  | insertMany params => params.insertMany
  | update params => params.update
  | delete params => params.delete

def Harvest.filterOnly {α : Type} (h : Harvest α) (filter : Option Predicate) : List α :=
  (h.filter filter).flatMap Harvest.all

/-! ## What is written -/

namespace Json

/-- The columns and values of a row. -/
def rowWritten : Json → List Written
  | .object members => members.flatMap fun (column, value) => [.name column, .value value]
  | other => [.value other]

def rowsWritten : Json → List Written
  | .array rows => rows.flatMap rowWritten
  | other => [.value other]

end Json

namespace ConflictSpec

def ruleWritten : ConflictRule → List Written
  | .doNothing => []
  | .doUpdate data filter =>
    (data.flatMap fun (column, value) => [.name column, .value value]) ++
      Harvest.written.filterOnly filter

def written (spec : ConflictSpec) : List Written :=
  (spec.columns.getD []).map .name ++ spec.constraint.toList.map .name ++ ruleWritten spec.action

end ConflictSpec

namespace InsertParams

/-- What an INSERT writes besides its rows. -/
def frameWritten (params : InsertParams) : List Written :=
  [.name params.table] ++ params.returning.map .name ++
    params.onConflict.toList.flatMap ConflictSpec.written ++ params.relations.written

end InsertParams

namespace Statement

/-- Everything that the operation writes. -/
def written : Statement → List Written
  | find params =>
    [.name params.table] ++ params.tableAlias.toList.map .name ++
      Harvest.written.query params.query ++ params.relations.written
  | insertOne params => params.frameWritten ++ params.data.rowWritten
  | insertMany params => params.frameWritten ++ params.data.rowsWritten
  | update params =>
    [.name params.table] ++ params.data.rowWritten ++ Harvest.written.filterOnly params.filter ++
      params.returning.map .name ++ params.relations.written
  | delete params =>
    [.name params.table] ++ Harvest.written.filterOnly params.filter ++
      params.returning.map .name ++ params.relations.written

end Statement

end DescriptorSql
