import DescriptorSql.Proofs.Compile.Carries
import DescriptorSql.Proofs.Compile.Fuel
import DescriptorSql.Proofs.Compile.Sequence
import DescriptorSql.Proofs.Descriptor.Nesting

/-!
# `Proofs/Compile/Termination.lean` — the recursion of the compiler is bounded

How much fuel the compiler needs depends on the descriptor alone (`compile_of_nesting_le`): each
level of nesting takes no more than six calls. A catalog may lead from a relation back to its own
table, but a relation is only looked up when the descriptor names it, so going around costs a level
each time.

That fuel suffices is shown for all functions at once, by induction on the fuel (`Suffices`). What a
function is called with is either as deep as what its caller was called with, and then fewer calls
are left to the next level, or it is less deep.
-/

set_option autoImplicit false

namespace DescriptorSql

section

variable (catalog : Catalog)

/-! ## Queries, part by part -/

/-- The joins of a query, and the condition that is made of those of its joins and its own. -/
def SelectQuery.level (query : SelectQuery) : Except QueryError Level := do
  let laterals ← includesText catalog query.includes
  let joins ← joinsText catalog query.body.joins
  return ⟨laterals ++ joins, query.body.mergedFilter⟩

/-- The conditions of a level. -/
def Level.expansion (level : Level) (query : SelectQuery) : Except QueryError Expansion := do
  let filter ← level.filter.mapM (Predicate.toSql catalog .and)
  let having ← query.body.having.mapM (Predicate.toSql catalog .and)
  return ⟨level.joins, filter, having⟩

/-- The compiler compiles a query level by level: its joins and the merged condition first, then the
conditions of the level. -/
theorem SelectQuery.expand_eq (query : SelectQuery) :
    query.expand catalog = query.level catalog >>= fun level => level.expansion catalog query := by
  obtain ⟨body, includes⟩ := query
  rw [SelectQuery.expand, SelectQuery.level, SelectQuery.includes, SelectQuery.body, expandBody_eq,
    overlayText_own]
  cases includesText catalog includes with
  | error error => rfl
  | ok laterals =>
    cases joinsText catalog body.joins with
    | error error => rfl
    | ok joins =>
      cases hfilter : body.mergedFilter.mapM (Predicate.toSql catalog .and) with
      | error error =>
        show _ = Level.expansion catalog _ _
        rw [Level.expansion, hfilter]
        rfl
      | ok filter =>
        show _ = Level.expansion catalog _ _
        rw [Level.expansion, hfilter, SelectQuery.body]
        cases body.having.mapM (Predicate.toSql catalog .and) <;> rfl

/-- The lateral join of a nested relation. -/
def lateralText (entry : String × SelectQuery) : Except QueryError String := do
  let relation ← catalog.resolve entry.1
  Sql.lateralJoin <$> entry.2.toNestedSql catalog entry.1 relation

/-- The nested relations are compiled one by one, and the first that fails decides the error. -/
theorem includesText_eq (includes : List (String × SelectQuery)) :
    includesText catalog includes = String.join <$> includes.mapM (lateralText catalog) := by
  induction includes with
  | nil => rfl
  | cons entry rest ih =>
    obtain ⟨name, query⟩ := entry
    rw [includesText, ih, List.mapM_cons, lateralText]
    cases catalog.resolve name with
    | error error => rfl
    | ok relation =>
      simp only [SelectQuery.toNestedSql]
      cases query.expand catalog with
      | error error => rfl
      | ok expansion =>
        cases rest.mapM (lateralText catalog) with
        | error error => rfl
        | ok others =>
          show Except.ok _ = Except.ok _
          rw [String.join_cons]

/-- A query as a statement over a source. -/
def SelectQuery.sqlFrom (source : String) (query : SelectQuery) (append : Sql.Append) :
    Except QueryError String := do
  let expansion ← query.expand catalog
  return selectStatement query.outputColumns.selectList source query.body expansion append

/-- A query without nested relations is compiled as its body. -/
theorem SelectQuery.expand_of_body (body : QueryBody) :
    (SelectQuery.mk body []).expand catalog = expandBody catalog body := by
  rw [SelectQuery.expand, includesText]
  cases expandBody catalog body with
  | error error => rfl
  | ok expansion =>
    show Except.ok _ = Except.ok _
    rw [String.empty_append]

/-- What a subquery selects has no part in its conditions. -/
theorem SubQuery.expand_selecting (query : SubQuery) (kind : SubQueryKind) :
    (query.selecting kind).expand catalog = expandBody catalog query.body := by
  obtain
    ⟨table?, select, filter, groupBy, having, orderBy, limit, offset, left, right, inner, full⟩ :=
    query
  rw [SubQuery.selecting, SubQuery.toSelectQuery]
  dsimp only
  rw [SelectQuery.expand_of_body, expandBody, expandBody]
  rfl

theorem SubQuery.nesting_selecting (query : SubQuery) (kind : SubQueryKind) :
    (query.selecting kind).nesting = query.body.nesting := Nat.max_zero _

/-- The text of a subquery that names its table. -/
theorem SubQuery.toSql_of_table {query : SubQuery} {table : String}
    (htable : query.table = some table) (kind : SubQueryKind) (name : String) :
    query.toSql catalog kind name = (fun sql => kind.keyword ++ "(" ++ sql ++ ")") <$>
      (query.selecting kind).toSql catalog table none {} := by
  rw [SubQuery.toSql, htable, subQueryPlace, SelectQuery.toSql, SubQuery.expand_selecting]
  cases expandBody catalog query.body <;> rfl

/-- The text of a subquery over the rows of a relation. -/
theorem SubQuery.toSql_of_relation {query : SubQuery} (htable : query.table = none)
    (kind : SubQueryKind) (name : String) :
    query.toSql catalog kind name = catalog.resolve name >>= fun relation =>
      (fun sql => kind.keyword ++ "(" ++ sql ++ if relation.junction.isSome then " )" else ")") <$>
        (query.selecting kind).sqlFrom catalog (Sql.relationSource relation)
          (.condition (Sql.correlation relation)) := by
  rw [SubQuery.toSql, htable, subQueryPlace]
  cases catalog.resolve name with
  | error error => rfl
  | ok relation =>
    simp only [SelectQuery.sqlFrom, SubQuery.expand_selecting]
    cases expandBody catalog query.body <;> rfl

/-! ## Enough fuel -/

/-- With so much fuel the functions answer, and answer as the compiler does. The numbers count the
calls from one predicate to the next. -/
structure Suffices (fuel : Nat) : Prop where
  predicate (connective : Connective) (predicate : Predicate) :
    6 * predicate.nesting ≤ fuel →
      Fueled.predicate catalog fuel connective predicate =
        .done (predicate.toSql catalog connective)
  group (connective : Connective) (branches : List Predicate) :
    6 * maxNesting branches + 1 ≤ fuel →
      Fueled.group catalog fuel connective branches =
        .done (groupClauses connective <$> branches.mapM (Predicate.toSql catalog connective))
  clauses (level : Level) (query : SelectQuery) :
    level.filter = query.body.mergedFilter → 6 * query.body.nesting + 1 ≤ fuel →
      Fueled.clauses catalog fuel level query = .done (level.expansion catalog query)
  expand (query : SelectQuery) :
    6 * query.nesting + 1 ≤ fuel → Fueled.expand catalog fuel query = .done (query.level catalog)
  selectFrom (source : String) (query : SelectQuery) (append : Sql.Append) :
    6 * query.nesting + 2 ≤ fuel →
      Fueled.selectFrom catalog fuel source query append =
        .done (query.sqlFrom catalog source append)
  buildNested (key : String) (relation : Relation) (query : SelectQuery) :
    6 * query.nesting + 2 ≤ fuel →
      Fueled.buildNested catalog fuel key relation query =
        .done (query.toNestedSql catalog key relation)
  buildSelect (table : String) (alias? : Option String) (query : SelectQuery)
    (append : Sql.Append) :
    6 * query.nesting + 3 ≤ fuel →
      Fueled.buildSelect catalog fuel table alias? query append =
        .done (query.toSql catalog table alias? append)
  subQuery (kind : SubQueryKind) (name : String) (query : SubQuery) :
    6 * query.body.nesting + 4 ≤ fuel →
      Fueled.subQuery catalog fuel kind name query = .done (query.toSql catalog kind name)
  comparison (field : String) (operator : Operator) (operand : Operand) :
    (∀ entry ∈ operand.queries, 6 * entry.2.body.nesting + 4 < fuel) → 0 < fuel →
      Fueled.comparison catalog fuel field operator operand =
        .done (operandClauses catalog field operator operand)

namespace Suffices

/-- Without fuel nothing is asked for, since every call needs some. -/
theorem zero : Suffices catalog 0 where
  predicate _ predicate h := by
    rw [Predicate.nesting_eq] at h
    omega
  group _ _ h := by omega
  clauses _ _ _ h := by omega
  expand _ h := by omega
  selectFrom _ _ _ h := by omega
  buildNested _ _ _ h := by omega
  buildSelect _ _ _ _ h := by omega
  subQuery _ _ _ h := by omega
  comparison _ _ _ _ h := by omega

variable {catalog} {fuel : Nat} (h : Suffices catalog fuel)

include h

/-- A predicate calls for its entries: groups, negations, subqueries and comparisons, each of which
leaves enough fuel for what is inside. -/
theorem predicate_succ {connective : Connective} {predicate : Predicate}
    (hfuel : 6 * predicate.nesting ≤ fuel + 1) :
    Fueled.predicate catalog (fuel + 1) connective predicate =
      .done (predicate.toSql catalog connective) := by
  rw [Fueled.predicate,
    Fueled.mapM_done (g := fun entry => conditionClauses catalog entry.1 entry.2)]
  · rw [Predicate.toSql, gather_entryClauses]
    cases predicate.entries.mapM fun entry => conditionClauses catalog entry.1 entry.2 <;> rfl
  -- what is inside a condition is a level below, so all calls of a level are left for it
  rintro ⟨field, condition⟩ hentry
  have hparts := Predicate.maxNesting_parts_lt hentry
  cases condition with
  | anyOf branches =>
    dsimp only [Condition.parts] at hparts ⊢
    rw [conditionClauses, branchTexts_eq, h.group .or branches (by omega)]
  | allOf branches =>
    dsimp only [Condition.parts] at hparts ⊢
    rw [conditionClauses, branchTexts_eq, h.group .and branches (by omega)]
  | negation inner =>
    have hinner : inner.nesting < predicate.nesting :=
      Nat.lt_of_le_of_lt (nesting_le_maxNesting List.mem_cons_self) hparts
    obtain ⟨entries⟩ := inner
    dsimp only
    rw [h.predicate .and _ (by omega), Fueled.map_done, conditionClauses, Predicate.toSql,
      Predicate.entries]
    cases gather (entryClauses catalog entries) <;> rfl
  | existence entries =>
    dsimp only
    rw [conditionClauses, existenceTexts_eq, ← Fueled.map_done, Fueled.mapM_done]
    rintro ⟨name, body⟩ hbody
    refine h.subQuery .existence name body.toSubQuery ?_
    have hnesting : body.toSubQuery.body.nesting < predicate.nesting :=
      Nat.lt_of_le_of_lt (maxNesting_le_of_subset fun part hpart =>
        List.mem_flatMap.mpr ⟨(name, body), hbody, hpart⟩) hparts
    omega
  | equals value => rfl
  | comparisons entries =>
    dsimp only
    rw [conditionClauses, comparisonsClauses_eq, ← Fueled.map_done, Fueled.mapM_done]
    rintro ⟨operator, operand⟩ hoperand
    refine h.comparison field operator operand (fun query hquery => ?_) ?_
    · have hnesting : query.2.body.nesting < predicate.nesting :=
        Nat.lt_of_le_of_lt (maxNesting_le_of_subset fun part hpart =>
          List.mem_flatMap.mpr ⟨_, hoperand, List.mem_flatMap.mpr ⟨query, hquery, hpart⟩⟩) hparts
      omega
    · omega

theorem group_succ {connective : Connective} {branches : List Predicate}
    (hfuel : 6 * maxNesting branches + 1 ≤ fuel + 1) :
    Fueled.group catalog (fuel + 1) connective branches =
      .done (groupClauses connective <$> branches.mapM (Predicate.toSql catalog connective)) := by
  rw [Fueled.group, Fueled.mapM_done, Fueled.map_done]
  intro branch hbranch
  have hnesting := nesting_le_maxNesting hbranch
  exact h.predicate connective branch (by omega)

/-- The two conditions of a level are not deeper than the predicates of the body. -/
theorem clauses_succ {level : Level} {query : SelectQuery}
    (hfilter : level.filter = query.body.mergedFilter)
    (hfuel : 6 * query.body.nesting + 1 ≤ fuel + 1) :
    Fueled.clauses catalog (fuel + 1) level query = .done (level.expansion catalog query) := by
  have hwithin : ∀ {predicate : Predicate}, predicate.nesting ≤ query.body.nesting →
      Fueled.predicate catalog fuel .and predicate = .done (predicate.toSql catalog .and) :=
    fun hle => h.predicate .and _ (by omega)
  rw [Fueled.clauses, Level.expansion,
    Fueled.option_mapM_done fun predicate hpredicate =>
      hwithin (QueryBody.nesting_mergedFilter (hfilter ▸ hpredicate)),
    Fueled.option_mapM_done fun predicate hpredicate =>
      hwithin (QueryBody.nesting_having hpredicate)]
  exact Fueled.done_bind fun filter _ => Fueled.done_bind fun having _ => rfl

/-- The relations nested into a query are a level less deep, and their call is paid by that level.
-/
theorem expand_succ {query : SelectQuery} (hfuel : 6 * query.nesting + 1 ≤ fuel + 1) :
    Fueled.expand catalog (fuel + 1) query = .done (query.level catalog) := by
  have hlateral : ∀ entry ∈ query.includes,
      (do
        let relation ← Fueled.done (catalog.resolve entry.1)
        Sql.lateralJoin <$> Fueled.buildNested catalog fuel entry.1 relation entry.2) =
      Fueled.done (lateralText catalog entry) := by
    intro entry hentry
    have hnesting := query.nesting_lt_of_mem_includes hentry
    refine Fueled.done_bind fun relation _ => ?_
    rw [h.buildNested entry.1 relation entry.2 (by omega), Fueled.map_done]
  rw [Fueled.expand, Fueled.mapM_done hlateral, SelectQuery.level, includesText_eq, bind_map_left]
  exact Fueled.done_bind fun laterals _ => Fueled.done_bind fun joins _ => rfl

/-- Both statements of a query are made of its expansion. -/
theorem of_expansion {query : SelectQuery} (hfuel : 6 * query.nesting + 1 ≤ fuel)
    (F : Expansion → String) :
    (do
      let level ← Fueled.expand catalog fuel query
      let expansion ← Fueled.clauses catalog fuel level query
      return F expansion) = Fueled.done (F <$> query.expand catalog) := by
  have hbody := query.nesting_body_le
  rw [h.expand query hfuel, SelectQuery.expand_eq, map_bind]
  refine Fueled.done_bind fun level hlevel => ?_
  have hfilter : level.filter = query.body.mergedFilter := by
    obtain ⟨laterals, -, hlevel⟩ := exists_of_bind_eq_ok hlevel
    obtain ⟨joins, -, rfl⟩ := exists_of_map_eq_ok hlevel
    rfl
  rw [h.clauses level query hfilter (by omega)]
  exact Fueled.map_done F _

theorem select_succ {source : String} {query : SelectQuery} {append : Sql.Append}
    (hfuel : 6 * query.nesting + 2 ≤ fuel + 1) :
    Fueled.selectFrom catalog (fuel + 1) source query append =
      .done (query.sqlFrom catalog source append) := by
  rw [Fueled.selectFrom, h.of_expansion (by omega)]
  rfl

theorem nested_succ {key : String} {relation : Relation} {query : SelectQuery}
    (hfuel : 6 * query.nesting + 2 ≤ fuel + 1) :
    Fueled.buildNested catalog (fuel + 1) key relation query =
      .done (query.toNestedSql catalog key relation) := by
  rw [Fueled.buildNested, h.of_expansion (by omega)]
  rfl

theorem build_succ {table : String} {alias? : Option String} {query : SelectQuery}
    {append : Sql.Append} (hfuel : 6 * query.nesting + 3 ≤ fuel + 1) :
    Fueled.buildSelect catalog (fuel + 1) table alias? query append =
      .done (query.toSql catalog table alias? append) := by
  rw [Fueled.buildSelect, h.selectFrom _ query append (by omega)]
  rfl

/-- A subquery over a relation is a SELECT without nested relations, and one call deeper than its
conditions. -/
theorem subQuery_succ {kind : SubQueryKind} {name : String} {query : SubQuery}
    (hfuel : 6 * query.body.nesting + 4 ≤ fuel + 1) :
    Fueled.subQuery catalog (fuel + 1) kind name query = .done (query.toSql catalog kind name) := by
  have hnesting := query.nesting_selecting kind
  rw [Fueled.subQuery]
  cases htable : query.table with
  | some table =>
    dsimp only
    rw [h.buildSelect table none _ _ (by omega), SubQuery.toSql_of_table catalog htable]
    exact Fueled.map_done _ _
  | none =>
    dsimp only
    rw [SubQuery.toSql_of_relation catalog htable]
    refine Fueled.done_bind fun relation _ => ?_
    rw [Sql.relationSource, Sql.junctionSource?]
    cases hjunction : relation.junction with
    | none =>
      dsimp only [Option.map_none]
      rw [h.buildSelect _ _ _ _ (by omega)]
      exact Fueled.map_done _ _
    | some junction =>
      dsimp only [Option.map_some]
      rw [h.selectFrom _ _ _ (by omega)]
      exact Fueled.map_done _ _

/-- Subqueries behind an operator are a level less deep than the predicate that compares with them.
-/
theorem comparison_succ {field : String} {operator : Operator} {operand : Operand}
    (hfuel : ∀ entry ∈ operand.queries, 6 * entry.2.body.nesting + 4 < fuel + 1) :
    Fueled.comparison catalog (fuel + 1) field operator operand =
      .done (operandClauses catalog field operator operand) := by
  -- a list of subqueries is answered if each of them is
  have hrows : ∀ keyword queries, queries ⊆ operand.queries →
      (queries.mapM fun entry => Fueled.subQuery catalog fuel (.rows keyword) entry.1 entry.2) =
        .done (rowsTexts catalog keyword queries) := by
    intro keyword queries hsubset
    rw [rowsTexts_eq, Fueled.mapM_done]
    exact fun entry hmem =>
      h.subQuery _ entry.1 entry.2 (Nat.le_of_lt_succ (hfuel _ (hsubset hmem)))
  unfold Fueled.comparison operandClauses
  split
  · cases operand with
    | value value => cases value <;> rfl
    | list items => rfl
    | subqueries queries =>
      dsimp only
      rw [hrows operator.sql queries (List.Subset.refl _), Fueled.map_done]
    | quantified groups => rfl
  · split
    · rfl
    · cases operand with
      | value value => rfl
      | list items => rfl
      | subqueries queries => rfl
      | quantified groups =>
        dsimp only
        rw [quantifiedTexts_eq,
          Fueled.mapM_done (g := fun group => rowsTexts catalog group.1.sql group.2),
          Fueled.map_done]
        · cases groups.mapM fun group => rowsTexts catalog group.1.sql group.2 <;> rfl
        · intro group hgroup
          exact hrows group.1.sql group.2 fun entry hentry =>
            List.mem_flatMap.mpr ⟨group, hgroup, hentry⟩

/-- One step of the induction: with one call more than suffices for all that is called, everything
is answered. -/
theorem succ : Suffices catalog (fuel + 1) where
  predicate _ _ hfuel := h.predicate_succ hfuel
  group _ _ hfuel := h.group_succ hfuel
  clauses _ _ hfilter hfuel := h.clauses_succ hfilter hfuel
  expand _ hfuel := h.expand_succ hfuel
  selectFrom _ _ _ hfuel := h.select_succ hfuel
  buildNested _ _ _ hfuel := h.nested_succ hfuel
  buildSelect _ _ _ _ hfuel := h.build_succ hfuel
  subQuery _ _ _ hfuel := h.subQuery_succ hfuel
  comparison _ _ _ hfuel _ := h.comparison_succ hfuel

omit h in
/-- So any fuel suffices for what it is enough for. -/
theorem of_fuel (fuel : Nat) : Suffices catalog fuel := by
  induction fuel with
  | zero => exact .zero catalog
  | succ fuel ih => exact ih.succ

end Suffices

end

/-- With enough fuel the compiler does not run out of it, and more of it changes nothing: six calls
for every level of nesting, and three more from a statement to the first of them, whatever the
catalog. -/
theorem compile_of_nesting_le (query : SelectQuery) (predicate : Predicate) (fuel : Nat)
    (hquery : 6 * query.nesting + 3 ≤ fuel) (hpredicate : 6 * predicate.nesting ≤ fuel)
    (catalog : Catalog) :
    (∀ table alias? append, Fueled.buildSelect catalog fuel table alias? query append =
        .done (query.toSql catalog table alias? append)) ∧
      (∀ key relation, Fueled.buildNested catalog fuel key relation query =
        .done (query.toNestedSql catalog key relation)) ∧
      ∀ connective, Fueled.predicate catalog fuel connective predicate =
        .done (predicate.toSql catalog connective) := by
  have h : Suffices catalog fuel := .of_fuel fuel
  exact ⟨fun table alias? append => h.buildSelect table alias? query append hquery,
    fun key relation => h.buildNested key relation query (by omega),
    fun connective => h.predicate connective predicate hpredicate⟩

/-- A tree: both relations lead from its table to itself. -/
def treeCatalog : Catalog :=
  [("parent", ⟨.one, "nodes", "id", "nodes", "parent_id", some "up", none⟩),
    ("children", ⟨.many, "nodes", "parent_id", "nodes", "id", some "down", none⟩)]

/-- There is no child whose parent is there. -/
def treePredicate : Predicate :=
  .ofEntries [("NOT", .negation (.ofEntries [("exists", .existence [("children", .rowsOf ⟨none,
    { QueryBody.empty with
      filter := some (.ofEntries [("exists", .existence [("parent", .anyRow)])]) }⟩)])]))]

/-- The children with their parents with their children, around the tree. -/
def treeQuery : SelectQuery :=
  .mk { QueryBody.empty with leftJoin := [("parent", ⟨[], some treePredicate⟩)] }
    [("children", .mk { QueryBody.empty with filter := some treePredicate }
      [("parent", .mk QueryBody.empty [("children", .empty)])])]

/-- Going around the tree takes as many levels as the query names, and so 27 calls are enough. -/
theorem compile_treeQuery_of_nesting_le :
    (6 * treeQuery.nesting + 3 ≤ 27 ∧ 6 * treePredicate.nesting ≤ 27) ∧
      (∀ table alias? append, Fueled.buildSelect treeCatalog 27 table alias? treeQuery append =
          .done (treeQuery.toSql treeCatalog table alias? append)) ∧
        (∀ key relation, Fueled.buildNested treeCatalog 27 key relation treeQuery =
          .done (treeQuery.toNestedSql treeCatalog key relation)) ∧
        ∀ connective, Fueled.predicate treeCatalog 27 connective treePredicate =
          .done (treePredicate.toSql treeCatalog connective) := by
  have hquery : 6 * treeQuery.nesting + 3 ≤ 27 := by decide +kernel
  have hpredicate : 6 * treePredicate.nesting ≤ 27 := by decide +kernel
  exact ⟨⟨hquery, hpredicate⟩, compile_of_nesting_le treeQuery treePredicate 27 hquery hpredicate
    treeCatalog⟩

end DescriptorSql
