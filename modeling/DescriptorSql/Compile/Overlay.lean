import DescriptorSql.Compile.Condition
import DescriptorSql.Descriptor.Builder

/-!
# `Compile/Overlay.lean` — the one condition of a query and its joins

The conditions of a query's joins are laid over the query's own, and what results is a predicate
like any other (`QueryBody.mergedFilter`). The compiler lays compiled entries over each other
instead of the entries themselves, and the main statement here is that this makes no difference
(`overlayText_filters`): the condition of a level is the merged predicate, compiled.
-/

set_option autoImplicit false

namespace DescriptorSql

/-! ## The merged predicate -/

/-- The predicates that the condition of a body is made of, in the order in which they are laid over
each other. -/
def QueryBody.filters (body : QueryBody) : List Predicate :=
  body.filter.toList ++ body.joins.filterMap fun (_, _, join) => join.filter

/-- The condition of a body: its own predicate with those of its joins laid over it. -/
def QueryBody.mergedFilter (body : QueryBody) : Option Predicate :=
  match body.filters with
  | [] => none
  | first :: rest => some (rest.foldl Predicate.merge first)

/-! ## Compiling and merging -/

theorem entryClauses_eq_map (catalog : Catalog) (entries : List (String × Condition)) :
    entryClauses catalog entries =
      entries.map fun (field, condition) => (field, conditionClauses catalog field condition) := by
  induction entries with
  | nil => rfl
  | cons entry rest ih =>
    obtain ⟨field, condition⟩ := entry
    rw [entryClauses, ih, List.map_cons]

/-- The compiled entries of a merged predicate are the merged compiled entries. -/
theorem entryClauses_merge (catalog : Catalog) (base overlay : Predicate) :
    entryClauses catalog (base.merge overlay).entries =
      Entries.merge (entryClauses catalog base.entries) (entryClauses catalog overlay.entries) := by
  simp only [entryClauses_eq_map]
  exact (Entries.merge_map (fun field condition => conditionClauses catalog field condition)
    base.entries overlay.entries).symm

theorem entryClauses_foldl_merge (catalog : Catalog) (first : Predicate) (rest : List Predicate) :
    entryClauses catalog (rest.foldl Predicate.merge first).entries =
      (rest.map fun predicate => entryClauses catalog predicate.entries).foldl Entries.merge
        (entryClauses catalog first.entries) := by
  induction rest generalizing first with
  | nil => rfl
  | cons next rest ih =>
    rw [List.foldl_cons, ih, entryClauses_merge, List.map_cons, List.foldl_cons]

theorem filterClauses_eq (catalog : Catalog) (filter : Option Predicate) :
    filterClauses catalog filter =
      filter.toList.map fun predicate => entryClauses catalog predicate.entries := by
  match filter with
  | none => rfl
  | some (.ofEntries entries) => rfl

theorem joinFilters_eq (catalog : Catalog) (joins : List (String × JoinQuery)) :
    joinFilters catalog joins =
      (joins.filterMap fun (_, join) => join.filter).map fun predicate =>
        entryClauses catalog predicate.entries := by
  induction joins with
  | nil => rfl
  | cons entry rest ih =>
    obtain ⟨name, select, filter⟩ := entry
    rw [joinFilters, ih, filterClauses_eq]
    cases filter with
    | none => rfl
    | some predicate => rfl

/-- The compiled entries of all predicates of a body are those of its `filters`. -/
theorem filters_map_entryClauses (catalog : Catalog) (body : QueryBody) :
    filterClauses catalog body.filter ++ joinFilters catalog body.leftJoin ++
        joinFilters catalog body.rightJoin ++ joinFilters catalog body.innerJoin ++
        joinFilters catalog body.fullJoin =
      body.filters.map fun predicate => entryClauses catalog predicate.entries := by
  simp only [QueryBody.filters, QueryBody.joins, filterClauses_eq, joinFilters_eq, List.map_append,
    List.filterMap_append, List.filterMap_map, Function.comp_def, List.append_assoc]

/-- The condition of a body is its merged predicate, compiled. -/
theorem overlayText_filters (catalog : Catalog) (body : QueryBody) :
    overlayText (body.filters.map fun predicate => entryClauses catalog predicate.entries) =
      body.mergedFilter.mapM (Predicate.toSql catalog .and) := by
  unfold QueryBody.mergedFilter
  split
  · next h => rw [h]; rfl
  · next first rest h =>
    rw [h, List.map_cons, overlayText, ← entryClauses_foldl_merge, Option.mapM_some,
      Predicate.toSql]
    cases gather (entryClauses catalog (rest.foldl Predicate.merge first).entries) <;> rfl

/-- A predicate on its own is laid over nothing. -/
theorem overlayText_own (catalog : Catalog) (filter : Option Predicate) :
    overlayText (filterClauses catalog filter) = filter.mapM (Predicate.toSql catalog .and) := by
  match filter with
  | none => rfl
  | some (.ofEntries entries) =>
    rw [filterClauses, overlayText, List.foldl_nil, Option.mapM_some, Predicate.toSql,
      Predicate.entries]
    cases gather (entryClauses catalog entries) <;> rfl

/-- What the compiler takes from a body: the joins in order, the merged condition, the condition on
groups. -/
theorem expandBody_eq (catalog : Catalog) (body : QueryBody) :
    expandBody catalog body = do
      let joins ← joinsText catalog body.joins
      let filter ← body.mergedFilter.mapM (Predicate.toSql catalog .and)
      let having ← overlayText (filterClauses catalog body.having)
      return ⟨joins, filter, having⟩ := by
  obtain ⟨select, filter, groupBy, having, orderBy, limit, offset, left, right, inner, full⟩ := body
  rw [expandBody, ← overlayText_filters, ← filters_map_entryClauses]

end DescriptorSql
