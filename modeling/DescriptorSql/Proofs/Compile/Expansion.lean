import DescriptorSql.Proofs.Compile.Termination
import DescriptorSql.Proofs.Descriptor.Writes

/-!
# `Proofs/Compile/Expansion.lean` — what one level of a query is expanded to

A query is expanded together with the relations that are nested into its rows and with its joins.
Each of them writes columns, the joins write conditions as well, and each adds a fragment to the
text of the joins. What is left of all this is what the writes leave behind in the order in which
they stand in the query (`SelectQuery.expand_of_level`).
-/

set_option autoImplicit false

namespace DescriptorSql

/-! ## What a level writes -/

/-- The columns that a query writes: its own, one for every nested relation, and those of its
joins. -/
def SelectQuery.columnWrites (query : SelectQuery) : List (String × Column) :=
  query.body.select ++
    ((Entries.keys query.includes).map (·, Column.reuse) ++
      query.body.joins.flatMap fun (_, _, join) => join.select)

/-- The conditions that a query writes: its own, and those of its joins. -/
def QueryBody.conditionWrites (body : QueryBody) : List (String × Condition) :=
  body.filters.flatMap Predicate.entries

/-- The maps of a query have every key once. -/
structure QueryBody.DistinctKeys (body : QueryBody) : Prop where
  select : (Entries.keys body.select).Nodup
  filters : ∀ predicate ∈ body.filters, (Entries.keys predicate.entries).Nodup

theorem SelectQuery.leftBy_outputColumns {query : SelectQuery}
    (hdistinct : query.body.DistinctKeys) :
    Entries.LeftBy query.columnWrites query.outputColumns :=
  Entries.leftBy_merge hdistinct.select _

theorem QueryBody.leftBy_mergedFilter {body : QueryBody} (hdistinct : body.DistinctKeys)
    {predicate : Predicate} (h : body.mergedFilter = some predicate) :
    Entries.LeftBy body.conditionWrites predicate.entries := by
  rw [QueryBody.mergedFilter] at h
  split at h
  · cases h
  · next first rest hfilters =>
    cases h
    have hfirst : (Entries.keys first.entries).Nodup :=
      hdistinct.filters first (hfilters ▸ List.mem_cons_self)
    rw [QueryBody.conditionWrites, hfilters, List.flatMap_cons, Predicate.entries_foldl_merge]
    exact Entries.leftBy_merge hfirst _

/-- There is a condition as soon as the query or one of its joins has one. -/
theorem QueryBody.mergedFilter_eq_none_iff (body : QueryBody) :
    body.mergedFilter = none ↔
      body.filter = none ∧ ∀ kind name join, (kind, name, join) ∈ body.joins →
        join.filter = none := by
  have hnone : body.mergedFilter = none ↔ body.filters = [] := by
    rw [QueryBody.mergedFilter]
    split
    · next hfilters => simp [hfilters]
    · next hfilters => simp [hfilters]
  rw [hnone, QueryBody.filters, List.append_eq_nil_iff, Option.toList_eq_nil_iff,
    List.filterMap_eq_nil_iff]
  simp only [Prod.forall]

/-! ## The fragments of the joins -/

theorem forall₂_of_mapM {α β : Type} {f : α → Except QueryError β} {items : List α}
    {results : List β} (hok : items.mapM f = .ok results) :
    List.Forall₂ (fun item result => f item = .ok result) items results := by
  induction items generalizing results with
  | nil =>
    cases hok
    exact .nil
  | cons item rest ih =>
    rw [List.mapM_cons] at hok
    obtain ⟨first, hfirst, hok⟩ := exists_of_bind_eq_ok hok
    obtain ⟨others, hothers, hok⟩ := exists_of_bind_eq_ok hok
    cases hok
    exact .cons hfirst (ih hothers)

section

variable (catalog : Catalog)

/-- The text is the lateral join of the rows that are nested under the name. -/
def IsLateralFragment (entry : String × SelectQuery) (text : String) : Prop :=
  ∃ relation nested, catalog.resolve entry.1 = .ok relation ∧
    entry.2.toNestedSql catalog entry.1 relation = .ok nested ∧ text = Sql.lateralJoin nested

/-- The text joins the relation that the join names. -/
def IsJoinFragment (entry : JoinKind × String × JoinQuery) (text : String) : Prop :=
  ∃ relation, catalog.resolve entry.2.1 = .ok relation ∧ text = Sql.relationJoin entry.1 relation

variable {catalog}

theorem exists_of_includesText {includes : List (String × SelectQuery)} {text : String}
    (hok : includesText catalog includes = .ok text) :
    ∃ laterals, List.Forall₂ (IsLateralFragment catalog) includes laterals ∧
      text = String.join laterals := by
  rw [includesText_eq] at hok
  obtain ⟨laterals, hlaterals, rfl⟩ := exists_of_map_eq_ok hok
  refine ⟨laterals, (forall₂_of_mapM hlaterals).imp ?_, rfl⟩
  intro entry lateral hlateral
  obtain ⟨relation, hrelation, hlateral⟩ := exists_of_bind_eq_ok hlateral
  obtain ⟨nested, hnested, rfl⟩ := exists_of_map_eq_ok hlateral
  exact ⟨relation, nested, hrelation, hnested, rfl⟩

theorem forall₂_of_joinsText {joins : List (JoinKind × String × JoinQuery)} {text : String}
    (hok : joinsText catalog joins = .ok text) :
    ∃ texts, List.Forall₂ (IsJoinFragment catalog) joins texts ∧ text = String.join texts := by
  obtain ⟨texts, htexts, hjoin⟩ := exists_of_bind_eq_ok hok
  refine ⟨texts, (forall₂_of_mapM htexts).imp ?_, (Except.ok.inj hjoin).symm⟩
  rintro ⟨kind, name, join⟩ joined hjoined
  obtain ⟨relation, hrelation, hjoined⟩ := exists_of_bind_eq_ok hjoined
  exact ⟨relation, hrelation, (Except.ok.inj hjoined).symm⟩

end

/-! ## One level -/

/-- When a level of a query is expanded, its columns and its condition are what the query, its
nested relations and its joins leave behind in this order, its joins are the lateral ones and then
the others, and the conditions are compiled from there. -/
theorem SelectQuery.expand_of_level {catalog : Catalog} {query : SelectQuery} {level : Level}
    (hdistinct : query.body.DistinctKeys) (hlevel : query.level catalog = .ok level) :
    query.expand catalog = level.expansion catalog query ∧
      Entries.LeftBy query.columnWrites query.outputColumns ∧
      (∃ laterals joins, List.Forall₂ (IsLateralFragment catalog) query.includes laterals ∧
        List.Forall₂ (IsJoinFragment catalog) query.body.joins joins ∧
        level.joins = String.join (laterals ++ joins)) ∧
      (level.filter = none ↔ query.body.filter = none ∧
        ∀ kind name join, (kind, name, join) ∈ query.body.joins → join.filter = none) ∧
      ∀ predicate, level.filter = some predicate →
        Entries.LeftBy query.body.conditionWrites predicate.entries := by
  have hexpand : query.expand catalog = level.expansion catalog query := by
    rw [SelectQuery.expand_eq, hlevel]
    rfl
  obtain ⟨lateralText, hlaterals, hrest⟩ := exists_of_bind_eq_ok hlevel
  obtain ⟨joinText, hjoins, rfl⟩ := exists_of_map_eq_ok hrest
  obtain ⟨laterals, hlateral, rfl⟩ := exists_of_includesText hlaterals
  obtain ⟨joins, hjoin, rfl⟩ := forall₂_of_joinsText hjoins
  refine ⟨hexpand, SelectQuery.leftBy_outputColumns hdistinct,
    ⟨laterals, joins, hlateral, hjoin, ?_⟩,
    query.body.mergedFilter_eq_none_iff, fun predicate hfilter => ?_⟩
  · exact (String.join_append ..).symm
  · exact QueryBody.leftBy_mergedFilter hdistinct hfilter

/-- The children and the parents of a tree write to columns and to a condition that the query has
itself. -/
def rewrittenQuery : SelectQuery :=
  .mk
    { QueryBody.empty with
      select := [("id", .reuse), ("children", .source "child_count")]
      filter := some (.ofEntries [("kind", .equals (.string "leaf"))])
      leftJoin := [("parent", ⟨[("id", .source "up.id"), ("label", .reuse)],
        some (.ofEntries [("kind", .equals (.string "root")), ("open", .equals (.bool true))])⟩)] }
    [("children", .empty)]

theorem rewrittenQuery_expand_of_level :
    rewrittenQuery.body.DistinctKeys ∧ ∃ level, rewrittenQuery.level treeCatalog = .ok level ∧
      rewrittenQuery.expand treeCatalog = level.expansion treeCatalog rewrittenQuery ∧
      Entries.LeftBy rewrittenQuery.columnWrites rewrittenQuery.outputColumns ∧
      (∃ laterals joins,
        List.Forall₂ (IsLateralFragment treeCatalog) rewrittenQuery.includes laterals ∧
        List.Forall₂ (IsJoinFragment treeCatalog) rewrittenQuery.body.joins joins ∧
        level.joins = String.join (laterals ++ joins)) ∧
      (level.filter = none ↔ rewrittenQuery.body.filter = none ∧
        ∀ kind name join, (kind, name, join) ∈ rewrittenQuery.body.joins → join.filter = none) ∧
      ∀ predicate, level.filter = some predicate →
        Entries.LeftBy rewrittenQuery.body.conditionWrites predicate.entries := by
  have hdistinct : rewrittenQuery.body.DistinctKeys := by
    refine ⟨by decide, fun predicate hpredicate => ?_⟩
    have hfilters : predicate = .ofEntries [("kind", .equals (.string "leaf"))] ∨
        predicate =
          .ofEntries [("kind", .equals (.string "root")), ("open", .equals (.bool true))] := by
      simpa [rewrittenQuery, SelectQuery.body, QueryBody.filters, QueryBody.joins,
        QueryBody.empty] using hpredicate
    rcases hfilters with rfl | rfl
    · decide
    · decide
  have hsome : (rewrittenQuery.level treeCatalog).toOption.isSome = true := by decide +kernel
  obtain ⟨level, hlevel⟩ := exists_eq_ok hsome
  exact ⟨hdistinct, level, hlevel, SelectQuery.expand_of_level hdistinct hlevel⟩

end DescriptorSql
