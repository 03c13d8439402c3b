import DescriptorSql.Proofs.Compile.Sequence
import DescriptorSql.Proofs.Descriptor.Faithful
import DescriptorSql.Proofs.Statement.Tuples

/-!
# `Proofs/Statement/Demand.lean` — what an INSERT demands

An INSERT checks its table, its data and its conflict rule in several places, and the last check is
the compilation of a condition. Here the demands stand in one list, each with the error that reports
it (`InsertParams.oneDemands`, `InsertParams.manyDemands`). A statement comes out exactly if all of
them are met, and otherwise the first one that is not decides the error, whatever is wrong behind it
(`InsertParams.decided_insert`).
-/

set_option autoImplicit false

namespace DescriptorSql

/-! ## Demands -/

/-- What has to hold, and the errors that report that it does not. -/
structure Demand where
  Met : Prop
  Reports : QueryError → Prop

namespace Demand

/-- A demand whose error says no more than what is violated. -/
def plain (condition : Prop) (violation : Violation) : Demand :=
  ⟨condition, fun error => error = .validation violation⟩

/-- The demand is not met, and the error reports it. -/
def Fails (demand : Demand) (error : QueryError) : Prop := ¬ demand.Met ∧ demand.Reports error

end Demand

section

variable {α β : Type} {demands others : List Demand} {demand : Demand} {error : QueryError}

/-- The error of the first demand that is not met. -/
def FirstUnmet (demands : List Demand) (error : QueryError) : Prop :=
  FirstFails Demand.Met Demand.Fails demands error

/-- The computation gives a result if all demands are met, and the error of the first one that is
not otherwise. -/
structure Decided (demands : List Demand) (outcome : Except QueryError α) : Prop where
  ok_iff : (∃ result, outcome = .ok result) ↔ ∀ demand ∈ demands, demand.Met
  error_iff : ∀ {error}, outcome = .error error ↔ FirstUnmet demands error

/-- A demand that is not met is among them. -/
theorem FirstUnmet.not_forall (h : FirstUnmet demands error) :
    ¬ ∀ demand ∈ demands, demand.Met := by
  intro hmet
  obtain ⟨front, demand, back, rfl, -, hfails⟩ := firstFails_iff.mp h
  exact hfails.1 (hmet demand (List.mem_append_right front List.mem_cons_self))

/-- Behind demands that are met, the first failure is that of the rest. -/
theorem firstUnmet_append_iff :
    FirstUnmet (demands ++ others) error ↔
      FirstUnmet demands error ∨ (∀ demand ∈ demands, demand.Met) ∧ FirstUnmet others error := by
  induction demands with
  | nil =>
    have hnone : ¬ FirstUnmet [] error := by
      intro h
      cases h
    simp [hnone]
  | cons demand rest ih =>
    rw [List.cons_append, List.forall_mem_cons]
    constructor
    · intro h
      cases h with
      | here hfails => exact Or.inl (.here hfails)
      | later hmet hrest =>
        rcases ih.mp hrest with hrest | ⟨hall, hothers⟩
        · exact Or.inl (.later hmet hrest)
        · exact Or.inr ⟨⟨hmet, hall⟩, hothers⟩
    · intro h
      rcases h with h | ⟨⟨hmet, hall⟩, hothers⟩
      · cases h with
        | here hfails => exact .here hfails
        | later hmet hrest => exact .later hmet (ih.mpr (Or.inl hrest))
      · exact .later hmet (ih.mpr (Or.inr ⟨hall, hothers⟩))

namespace Decided

variable {x : Except QueryError α} {f : α → Except QueryError β}

/-- Without demands there is always a result. -/
theorem ok (result : α) : Decided [] (.ok result : Except QueryError α) where
  ok_iff := iff_of_true ⟨result, rfl⟩ (List.forall_mem_nil _)
  error_iff := by
    intro error
    constructor
    · intro h
      cases h
    · intro h
      cases h

/-- One demand, that is met by what gives a result and reported by what does not. -/
theorem single (hok : ∀ result, x = .ok result → demand.Met)
    (herror : ∀ error, x = .error error → demand.Fails error)
    (hunique : ∀ error other, demand.Reports error → demand.Reports other → error = other) :
    Decided [demand] x := by
  cases x with
  | ok result =>
    have hmet := hok result rfl
    constructor
    · exact iff_of_true ⟨result, rfl⟩ (List.forall_mem_singleton.mpr hmet)
    · intro error
      refine iff_of_false ?_ fun h => h.not_forall (List.forall_mem_singleton.mpr hmet)
      intro h
      cases h
  | error error =>
    have hfails := herror error rfl
    constructor
    · refine iff_of_false ?_ fun hmet => hfails.1 (List.forall_mem_singleton.mp hmet)
      intro ⟨result, h⟩
      cases h
    · intro other
      rw [Except.error.injEq]
      constructor
      · intro h
        exact .here (h ▸ hfails)
      · intro h
        cases h with
        | here hother => exact hunique _ _ hfails.2 hother.2
        | later hmet _ => exact absurd hmet hfails.1

/-- A check that reports one violation is decided by what it looks at. -/
theorem plain {condition : Prop} {violation : Violation}
    (hok : (∃ result, x = .ok result) ↔ condition)
    (herror : ∀ error, x = .error error → error = .validation violation) :
    Decided [Demand.plain condition violation] x := by
  apply single
  · intro result h
    exact hok.mp ⟨result, h⟩
  · intro error h
    refine ⟨fun hmet => ?_, herror error h⟩
    obtain ⟨result, hresult⟩ := hok.mpr hmet
    rw [h] at hresult
    cases hresult
  · intro error other herror hother
    exact herror.trans hother.symm

/-- What is computed behind a result has the demands of both. -/
theorem bind (hx : Decided demands x) (hf : ∀ a, x = .ok a → Decided others (f a)) :
    Decided (demands ++ others) (x >>= f) := by
  cases x with
  | ok a =>
    have hmet := hx.ok_iff.mp ⟨a, rfl⟩
    constructor
    · rw [List.forall_mem_append]
      exact (hf a rfl).ok_iff.trans (and_iff_right hmet).symm
    · intro error
      rw [firstUnmet_append_iff, or_iff_right fun h => h.not_forall hmet, and_iff_right hmet]
      exact (hf a rfl).error_iff
  | error cause =>
    have hunmet : FirstUnmet demands cause := hx.error_iff.mp rfl
    constructor
    · refine iff_of_false ?_ fun hall => hunmet.not_forall (List.forall_mem_append.mp hall).1
      intro ⟨result, h⟩
      cases h
    · intro error
      constructor
      · intro h
        cases h
        exact firstUnmet_append_iff.mpr (Or.inl hunmet)
      · intro h
        rcases firstUnmet_append_iff.mp h with h | ⟨hmet, -⟩
        · exact congrArg Except.error (Except.error.inj (hx.error_iff.mpr h))
        · exact absurd hmet hunmet.not_forall

theorem map (hx : Decided demands x) (g : α → β) : Decided demands (g <$> x) := by
  have h := hx.bind fun a _ => Decided.ok (g a)
  rw [List.append_nil] at h
  cases x with
  | ok a => exact h
  | error cause => exact h

end Decided

end

/-! ## Tables and data -/

namespace Demand

def table (name : String) : Demand := plain (Text.isBlankText name = false) .blankTable

/-- An object with members. -/
def row (data : Json) : Demand :=
  plain (∃ members, data = .object members ∧ members ≠ []) .insertData

/-- An array of objects, of which there is a first one that has members. -/
def rows (data : Json) : Demand :=
  plain (∃ first rest, data = .array (.object first :: rest) ∧ first ≠ [] ∧
    ∀ row ∈ rest, ∃ members, row = .object members) .insertRows

end Demand

theorem decided_checkTable (table : String) : Decided [.table table] (checkTable table) := by
  apply Decided.plain
  · rw [checkTable]
    cases hblank : Text.isBlankText table <;> simp
  · intro error h
    rw [checkTable] at h
    split at h
    · exact (Except.error.inj h).symm
    · cases h

theorem checkMembers_object (violation : Violation) {members : Entries String Json}
    (hne : members ≠ []) :
    checkMembers violation (.object members) = .ok members := by
  cases members with
  | nil => exact absurd rfl hne
  | cons member rest => rfl

theorem eq_of_checkMembers_eq_error {violation : Violation} {data : Json} {error : QueryError}
    (h : checkMembers violation data = .error error) : error = .validation violation := by
  rw [checkMembers] at h
  split at h
  · cases h
  · exact (Except.error.inj h).symm

/-- The data of one row is looked at once, for both things that it demands. -/
theorem decided_row (data : Json) : Decided [.row data] (checkMembers .insertData data) := by
  apply Decided.plain
  · constructor
    · intro ⟨members, h⟩
      exact ⟨members, eq_object_of_checkMembers h⟩
    · intro ⟨members, hdata, hne⟩
      exact ⟨members, hdata ▸ checkMembers_object .insertData hne⟩
  · intro error h
    exact eq_of_checkMembers_eq_error h

/-! ## Arrays of objects -/

namespace InsertParams

/-- The columns and the rows of an array of objects. -/
def tabulate : Json → Except QueryError (List String × List (List Json))
  | .array (first :: rest) => do
    let columns := Entries.keys (← checkMembers .insertRows first)
    return (columns, ← (first :: rest).mapM (rowValues columns))
  | _ => .error (.validation .insertRows)

/-- The table comes first, then the data as a whole, then the statement. -/
theorem insertMany_eq (params : InsertParams) :
    params.insertMany = checkTable params.table >>= fun _ =>
      tabulate params.data >>= fun table => params.statement table.1 table.2 := by
  rw [insertMany]
  cases checkTable params.table with
  | error error => rfl
  | ok _ =>
    match params.data with
    | .null | .bool _ | .number _ | .string _ | .object _ | .array [] => rfl
    | .array (first :: rest) =>
      simp only [tabulate, bind_assoc, pure_bind]

/-- Objects are filled up to the columns whatever they have. -/
theorem exists_rowValues (columns : List String) {rows : List Json}
    (h : ∀ row ∈ rows, ∃ members, row = .object members) :
    ∃ cells, rows.mapM (rowValues columns) = .ok cells := by
  induction rows with
  | nil => exact ⟨[], rfl⟩
  | cons row rest ih =>
    obtain ⟨⟨members, rfl⟩, hrest⟩ := List.forall_mem_cons.mp h
    obtain ⟨cells, hcells⟩ := ih hrest
    rw [List.mapM_cons, hcells]
    exact ⟨_, rfl⟩

/-- The only thing that a row can be refused for is that it is none. -/
theorem eq_of_rowValues_eq_error {columns : List String} {rows : List Json} {error : QueryError}
    (h : rows.mapM (rowValues columns) = .error error) : error = .validation .insertRows := by
  induction rows with
  | nil => cases h
  | cons row rest ih =>
    rw [List.mapM_cons] at h
    rcases error_of_bind_eq_error h with hrow | ⟨cells, -, h⟩
    · cases row with
      | object members => cases hrow
      | _ => exact (Except.error.inj hrow).symm
    · exact ih (error_of_map_eq_error h)

/-- The first row has to have members, the others may be empty. -/
theorem exists_tabulate_iff {data : Json} :
    (∃ table, tabulate data = .ok table) ↔ ∃ first rest, data = .array (.object first :: rest) ∧
      first ≠ [] ∧ ∀ row ∈ rest, ∃ members, row = .object members := by
  constructor
  · intro ⟨table, h⟩
    unfold tabulate at h
    split at h
    · next first rest =>
      obtain ⟨members, hmembers, h⟩ := exists_of_bind_eq_ok h
      obtain ⟨cells, hcells, -⟩ := exists_of_bind_eq_ok h
      obtain ⟨rfl, hne⟩ := eq_object_of_checkMembers hmembers
      obtain ⟨objects, hobjects, -⟩ := exists_objects hcells
      refine ⟨members, rest, rfl, hne, fun row hrow => ?_⟩
      have hmem : row ∈ objects.map Json.object := hobjects ▸ List.mem_cons_of_mem _ hrow
      obtain ⟨found, -, rfl⟩ := List.mem_map.mp hmem
      exact ⟨found, rfl⟩
    · cases h
  · intro ⟨first, rest, hdata, hne, hrest⟩
    have hrows : ∀ row ∈ Json.object first :: rest, ∃ members, row = .object members :=
      List.forall_mem_cons.mpr ⟨⟨first, rfl⟩, hrest⟩
    obtain ⟨cells, hcells⟩ := exists_rowValues (Entries.keys first) hrows
    refine ⟨(Entries.keys first, cells), ?_⟩
    rw [hdata, tabulate, checkMembers_object .insertRows hne]
    exact congrArg (fun outcome => Prod.mk (Entries.keys first) <$> outcome) hcells

theorem eq_of_tabulate_eq_error {data : Json} {error : QueryError}
    (h : tabulate data = .error error) :
    error = .validation .insertRows := by
  unfold tabulate at h
  split at h
  · rcases error_of_bind_eq_error h with h | ⟨members, -, h⟩
    · exact eq_of_checkMembers_eq_error h
    · exact eq_of_rowValues_eq_error (error_of_map_eq_error h)
  · exact (Except.error.inj h).symm

theorem decided_rows (data : Json) : Decided [.rows data] (tabulate data) := by
  apply Decided.plain
  · exact exists_tabulate_iff
  · intro error h
    exact eq_of_tabulate_eq_error h

end InsertParams

/-! ## Conflict rules -/

namespace ConflictSpec

/-- One target and not two: a list of columns that is not empty, or a constraint whose name is not
blank. -/
def HasOneTarget (spec : ConflictSpec) : Prop :=
  (∃ columns, spec.columns = some columns ∧ columns ≠ [] ∧ spec.constraint = none) ∨
    ∃ name, spec.constraint = some name ∧ Text.isBlankText name = false ∧ spec.columns = none

end ConflictSpec

namespace Demand

def target (spec : ConflictSpec) : Demand := plain spec.HasOneTarget .conflictTarget

def assigned (data : Entries String Json) : Demand := plain (data ≠ []) .updateData

/-- A condition that compiles, or none. -/
def filter (catalog : Catalog) (filter : Option Predicate) : Demand where
  Met := ∀ predicate, filter = some predicate → ∃ sql, predicate.toSql catalog .and = .ok sql
  Reports error :=
    ∃ predicate, filter = some predicate ∧ predicate.toSql catalog .and = .error error

end Demand

namespace ConflictSpec

def ruleDemands (catalog : Catalog) : ConflictRule → List Demand
  | .doNothing => []
  | .doUpdate data filter => [.assigned data, .filter catalog filter]

/-- What a conflict demands. -/
def demands (catalog : Catalog) (spec : ConflictSpec) : List Demand :=
  .target spec :: ruleDemands catalog spec.action

/-- A conflict has a target exactly if it names one and not both. -/
theorem exists_target_iff {spec : ConflictSpec} :
    (∃ target, spec.target = .ok target) ↔ spec.HasOneTarget := by
  obtain ⟨columns?, constraint?, action⟩ := spec
  match columns?, constraint? with
  | some [], none => simp [target, HasOneTarget]
  | some (first :: rest), none => simp [target, HasOneTarget]
  | none, some name =>
    cases hblank : Text.isBlankText name <;> simp [target, HasOneTarget, hblank]
  | none, none => simp [target, HasOneTarget]
  | some columns, some name => cases columns <;> simp [target, HasOneTarget]

theorem eq_of_target_eq_error {spec : ConflictSpec} {error : QueryError}
    (h : spec.target = .error error) :
    error = .validation .conflictTarget := by
  unfold target at h
  split at h
  · cases h
  · split at h
    · exact (Except.error.inj h).symm
    · cases h
  · exact (Except.error.inj h).symm

theorem decided_target (spec : ConflictSpec) : Decided [.target spec] spec.target := by
  apply Decided.plain
  · exact exists_target_iff
  · intro error h
    exact eq_of_target_eq_error h

end ConflictSpec

/-- A condition demands that it compiles. An absent one does, and demands nothing. -/
theorem decided_conditionText (catalog : Catalog) (filter : Option Predicate) :
    Decided [.filter catalog filter] (conditionText catalog filter) := by
  apply Decided.single
  · intro text? h predicate hfilter
    rw [hfilter] at h
    obtain ⟨sql, hsql, -⟩ := exists_of_map_eq_ok h
    exact ⟨sql, hsql⟩
  · intro error h
    cases filter with
    | none => cases h
    | some predicate =>
      have herror : predicate.toSql catalog .and = .error error := error_of_map_eq_error h
      refine ⟨fun hmet => ?_, predicate, rfl, herror⟩
      obtain ⟨sql, hsql⟩ := hmet predicate rfl
      rw [herror] at hsql
      cases hsql
  · intro error other ⟨predicate, hfilter, herror⟩ ⟨predicate', hfilter', hother⟩
    rw [hfilter] at hfilter'
    cases hfilter'
    rw [herror] at hother
    exact Except.error.inj hother

namespace ConflictSpec

/-- An update without data fails before its condition is compiled. -/
theorem rule_eq (catalog : Catalog) (data : Entries String Json) (filter : Option Predicate) :
    rule catalog (.doUpdate data filter) =
      (if data = [] then .error (.validation .updateData) else .ok ()) >>= fun _ =>
        Sql.ConflictAction.doUpdate data <$> conditionText catalog filter := by
  cases data with
  | nil => rfl
  | cons member rest => rfl

/-- An update demands its data first and its condition then. -/
theorem decided_rule (catalog : Catalog) (action : ConflictRule) :
    Decided (ruleDemands catalog action) (rule catalog action) := by
  cases action with
  | doNothing => exact .ok _
  | doUpdate data filter =>
    have hassigned : Decided [.assigned data]
        (if data = [] then .error (.validation .updateData) else .ok () :
          Except QueryError Unit) := by
      apply Decided.plain
      · by_cases hdata : data = [] <;> simp [hdata]
      · intro error h
        split at h
        · exact (Except.error.inj h).symm
        · cases h
    rw [rule_eq]
    exact hassigned.bind fun _ _ => (decided_conditionText catalog filter).map _

theorem decided_clause (catalog : Catalog) (spec : ConflictSpec) :
    Decided (spec.demands catalog) (spec.clause catalog) :=
  spec.decided_target.bind fun _ _ => (decided_rule catalog spec.action).map _

end ConflictSpec

/-! ## Statements -/

namespace InsertParams

/-- What an INSERT demands behind its data. -/
def conflictDemands (params : InsertParams) : List Demand :=
  params.onConflict.toList.flatMap (ConflictSpec.demands params.relations)

/-- Behind its data an INSERT demands what its conflict does, and nothing if it has none. -/
theorem decided_statement (params : InsertParams) (columns : List String)
    (rows : List (List Json)) :
    Decided params.conflictDemands (params.statement columns rows) := by
  rw [conflictDemands, statement]
  cases params.onConflict with
  | none => exact .ok _
  | some spec =>
    rw [Option.toList_some, List.flatMap_singleton, Option.mapM_some]
    exact ((ConflictSpec.decided_clause params.relations spec).map some).map _

/-- What the INSERT of one object demands, in the order of its checks. -/
def oneDemands (params : InsertParams) : List Demand :=
  [.table params.table, .row params.data] ++ params.conflictDemands

/-- What the INSERT of an array demands, in the order of its checks. -/
def manyDemands (params : InsertParams) : List Demand :=
  [.table params.table, .rows params.data] ++ params.conflictDemands

end InsertParams

/-- An INSERT compiles exactly if everything that it demands is met: a table, data and, where there
is a conflict, one target for it and something to assign under a condition that compiles. Otherwise
the error is that of the first demand that is not met. -/
theorem InsertParams.decided_insert (params : InsertParams) :
    Decided params.oneDemands (Statement.insertOne params).compile ∧
      Decided params.manyDemands (Statement.insertMany params).compile := by
  constructor
  · exact (decided_checkTable params.table).bind fun _ _ =>
      (decided_row params.data).bind fun members _ => params.decided_statement _ _
  · rw [Statement.compile, insertMany_eq]
    exact (decided_checkTable params.table).bind fun _ _ =>
      (decided_rows params.data).bind fun table _ => params.decided_statement table.1 table.2

/-- A list of columns without a column is not the same as none: next to a constraint it is one
target too many. -/
example :
    (Statement.insertOne ⟨"artists", .object [("name", .null)], [],
      some ⟨some [], some "artists_pkey", .doNothing⟩, []⟩).compile =
      .error (.validation .conflictTarget) := rfl

end DescriptorSql
