import DescriptorSql.Proofs.Descriptor.Reference
import DescriptorSql.Compile.Select

/-!
# `Proofs/Compile/Lookup.lean` — what the compiler asks the catalog

The compiler asks the catalog for the relations that a descriptor mentions, and for nothing else. So
two catalogs that give the same answers to these questions (`SameLookups`) compile a descriptor to
the same text, or fail with the same error (`toSql_congr`). The mentions are all of them, also those
in conditions that others are laid over; a subquery with a table of its own mentions no relation.
-/

set_option autoImplicit false

namespace DescriptorSql

/-- Under every name that is mentioned, both catalogs have the same relation, or both have none. -/
def SameLookups (mentions : List Reference) (first second : Catalog) : Prop :=
  ∀ reference ∈ mentions, Entries.get? first reference.name = Entries.get? second reference.name

instance (mentions : List Reference) (first second : Catalog) :
    Decidable (SameLookups mentions first second) :=
  inferInstanceAs (Decidable (∀ reference ∈ mentions, _ = _))

variable {first second : Catalog}

/-- The mentions of a whole are those of its parts, and the catalogs answer them one by one. -/
@[simp] theorem sameLookups_append {mentions others : List Reference} :
    SameLookups (mentions ++ others) first second ↔
      SameLookups mentions first second ∧ SameLookups others first second := by
  simp only [SameLookups, List.mem_append, or_imp, forall_and]

/-- A mentioned name is resolved alike: to the same relation, or with the same error. -/
theorem SameLookups.resolve_eq {mentions : List Reference} (h : SameLookups mentions first second)
    {reference : Reference} (hmention : reference ∈ mentions) :
    first.resolve reference.name = second.resolve reference.name := by
  rw [Catalog.resolve, Catalog.resolve, h reference hmention]

/-! ## Joins and subqueries -/

/-- A join of a body, of whichever kind, is among the mentions of the body. -/
theorem mem_mentions_clauses {body : QueryBody} {join : JoinKind × String × JoinQuery}
    (h : join ∈ body.joins) : .joined join.2.1 ∈ Harvest.mentions.clauses body :=
  List.mem_append_right _ (List.mem_flatMap.mpr ⟨join, h, List.mem_cons_self⟩)

/-- Of the catalog, the joins of a body are told only the relations that they name. -/
theorem joinsText_congr {joins : List (JoinKind × String × JoinQuery)}
    (h : ∀ join ∈ joins, first.resolve join.2.1 = second.resolve join.2.1) :
    joinsText first joins = joinsText second joins := by
  unfold joinsText
  congr 1
  induction joins with
  | nil => rfl
  | cons join rest ih =>
    obtain ⟨kind, name, joined⟩ := join
    obtain ⟨hfirst, hrest⟩ := List.forall_mem_cons.mp h
    dsimp only at hfirst
    rw [List.mapM_cons, List.mapM_cons, ih hrest]
    dsimp only
    rw [hfirst]

/-- A subquery over a table of its own has its place whatever the catalog, and any other has it from
the relation that its name mentions. -/
theorem subQueryPlace_congr {kind : SubQueryKind} {name : String} {table? : Option String}
    {body : QueryBody}
    (h : SameLookups (Harvest.mentions.place kind name table? body) first second) :
    subQueryPlace first name table? = subQueryPlace second name table? := by
  cases table? with
  | some table => rfl
  | none =>
    have hmention : .rows kind name body ∈ Harvest.mentions.place kind name none body :=
      List.mem_cons_self
    rw [subQueryPlace, subQueryPlace]
    exact congrArg (· >>= _) (h.resolve_eq hmention)

/-! ## Predicates -/

mutual

/-- The induction follows the compiler. What a part of a predicate mentions is a stretch of what the
whole mentions, so each case hands the stretch to the part it belongs to. -/
theorem entryClauses_congr :
    ∀ {entries : List (String × Condition)},
      SameLookups (Harvest.all (Harvest.mentions.entries entries)) first second →
        entryClauses first entries = entryClauses second entries
  | [], _ => rfl
  | (field, condition) :: rest, h => by
    rw [Harvest.entries, Harvest.all_cons, sameLookups_append] at h
    rw [entryClauses, entryClauses, conditionClauses_congr h.1, entryClauses_congr h.2]

theorem conditionClauses_congr {field : String} :
    ∀ {condition : Condition},
      SameLookups (Harvest.mentions.condition field condition) first second →
        conditionClauses first field condition = conditionClauses second field condition
  | .anyOf _, h => by rw [conditionClauses, conditionClauses, branchTexts_congr h]
  | .allOf _, h => by rw [conditionClauses, conditionClauses, branchTexts_congr h]
  | .negation (.ofEntries _), h => by rw [conditionClauses, conditionClauses, entryClauses_congr h]
  | .existence _, h => by rw [conditionClauses, conditionClauses, existenceTexts_congr h]
  | .equals _, _ => rfl
  | .comparisons _, h => by rw [conditionClauses, conditionClauses, comparisonsClauses_congr h]

theorem branchTexts_congr {connective : Connective} :
    ∀ {branches : List Predicate}, SameLookups (Harvest.mentions.branches branches) first second →
      branchTexts first connective branches = branchTexts second connective branches
  | [], _ => rfl
  | .ofEntries entries :: rest, h => by
    rw [Harvest.branches, sameLookups_append] at h
    rw [branchTexts, branchTexts, entryClauses_congr h.1, branchTexts_congr h.2]

theorem existenceTexts_congr :
    ∀ {entries : List (String × ExistsBody)},
      SameLookups (Harvest.mentions.existence entries) first second →
        existenceTexts first entries = existenceTexts second entries
  | [], _ => rfl
  | (name, .anyRow) :: rest, h => by
    rw [Harvest.existence, sameLookups_append] at h
    have hplace := @subQueryPlace_congr _ _ .existence name none QueryBody.empty h.1
    rw [existenceTexts, existenceTexts, hplace, existenceTexts_congr h.2]
  | (name, .rowsOf ⟨table?, body⟩) :: rest, h => by
    rw [Harvest.existence, sameLookups_append, sameLookups_append] at h
    rw [existenceTexts, existenceTexts, subQueryPlace_congr h.1.1, expandBody_congr h.1.2,
      existenceTexts_congr h.2]

theorem comparisonsClauses_congr {field : String} :
    ∀ {entries : List (Operator × Operand)},
      SameLookups (Harvest.mentions.comparisons field entries) first second →
        comparisonsClauses first field entries = comparisonsClauses second field entries
  | [], _ => rfl
  | (operator, operand) :: rest, h => by
    rw [Harvest.comparisons, sameLookups_append] at h
    rw [comparisonsClauses, comparisonsClauses, operandClauses_congr h.1,
      comparisonsClauses_congr h.2]

theorem operandClauses_congr {field : String} {operator : Operator} :
    ∀ {operand : Operand},
      SameLookups (Harvest.mentions.operand field operator operand) first second →
        operandClauses first field operator operand = operandClauses second field operator operand
  | .value value, _ => by
    unfold operandClauses
    cases value <;> rfl
  | .list _, _ => by
    unfold operandClauses
    rfl
  | .subqueries queries, h => by
    rw [Harvest.operand, sameLookups_append] at h
    rw [operandClauses, operandClauses, rowsTexts_congr h.2]
  | .quantified groups, h => by
    rw [Harvest.operand, sameLookups_append] at h
    rw [operandClauses, operandClauses, quantifiedTexts_congr h.2]

theorem quantifiedTexts_congr :
    ∀ {groups : List (Quantifier × List (String × SubQuery))},
      SameLookups (Harvest.mentions.quantified groups) first second →
        quantifiedTexts first groups = quantifiedTexts second groups
  | [], _ => rfl
  | (quantifier, queries) :: rest, h => by
    rw [Harvest.quantified, sameLookups_append] at h
    rw [quantifiedTexts, quantifiedTexts, rowsTexts_congr h.1, quantifiedTexts_congr h.2]

theorem rowsTexts_congr {keyword : String} :
    ∀ {queries : List (String × SubQuery)},
      SameLookups (Harvest.mentions.subqueries keyword queries) first second →
        rowsTexts first keyword queries = rowsTexts second keyword queries
  | [], _ => rfl
  | (name, ⟨table?, body⟩) :: rest, h => by
    rw [Harvest.subqueries, sameLookups_append, sameLookups_append] at h
    rw [rowsTexts, rowsTexts, subQueryPlace_congr h.1.1, expandBody_congr h.1.2,
      rowsTexts_congr h.2]

/-- The conditions of the joins are among the body's own conditions, and the joins are mentioned
with its clauses. -/
theorem expandBody_congr :
    ∀ {body : QueryBody}, SameLookups (Harvest.mentions.body body) first second →
      expandBody first body = expandBody second body
  | ⟨select, filter, groupBy, having, orderBy, limit, offset, left, right, inner, full⟩, h => by
    rw [Harvest.body, sameLookups_append, sameLookups_append] at h
    obtain ⟨⟨hclauses, hfilters⟩, hhaving⟩ := h
    -- all conditions count, also those that are laid over
    have hlevel : ∀ levels, Harvest.mentions.level levels = levels.flatMap Harvest.all :=
      fun _ => rfl
    simp only [hlevel, List.flatMap_append, sameLookups_append] at hfilters hhaving
    obtain ⟨⟨⟨⟨hfilter, hleft⟩, hright⟩, hinner⟩, hfull⟩ := hfilters
    have hjoins :=
      joinsText_congr (fun join hjoin => hclauses.resolve_eq (mem_mentions_clauses hjoin))
    rw [expandBody, expandBody, hjoins, filterClauses_congr hfilter, filterClauses_congr hhaving,
      joinFilters_congr hleft, joinFilters_congr hright, joinFilters_congr hinner,
      joinFilters_congr hfull]

theorem filterClauses_congr :
    ∀ {filter : Option Predicate},
      SameLookups ((Harvest.mentions.filter filter).flatMap Harvest.all) first second →
        filterClauses first filter = filterClauses second filter
  | none, _ => rfl
  | some (.ofEntries entries), h => by
    rw [Harvest.filter, List.flatMap_singleton] at h
    rw [filterClauses, filterClauses, entryClauses_congr h]

theorem joinFilters_congr :
    ∀ {joins : List (String × JoinQuery)},
      SameLookups ((Harvest.mentions.joinFilters joins).flatMap Harvest.all) first second →
        joinFilters first joins = joinFilters second joins
  | [], _ => rfl
  | (_, ⟨_, filter⟩) :: rest, h => by
    rw [Harvest.joinFilters, List.flatMap_append, sameLookups_append] at h
    rw [joinFilters, joinFilters, filterClauses_congr h.1, joinFilters_congr h.2]

end

/-! ## Queries -/

mutual

/-- A nested relation is mentioned under its own name, in front of what its query mentions. -/
theorem expand_congr :
    ∀ {query : SelectQuery}, SameLookups (Harvest.mentions.query query) first second →
      query.expand first = query.expand second
  | .mk body includes, h => by
    rw [Harvest.query, sameLookups_append] at h
    rw [SelectQuery.expand, SelectQuery.expand, includesText_congr h.1, expandBody_congr h.2]

theorem includesText_congr :
    ∀ {includes : List (String × SelectQuery)},
      SameLookups (Harvest.mentions.includes includes) first second →
        includesText first includes = includesText second includes
  | [], _ => rfl
  | (name, query) :: rest, h => by
    rw [Harvest.includes, sameLookups_append, sameLookups_append] at h
    have hmention : .nested name query ∈ Harvest.mentions.nested name query := List.mem_cons_self
    have hresolve := h.1.1.resolve_eq hmention
    rw [Reference.name] at hresolve
    rw [includesText, includesText, hresolve, expand_congr h.1.2, includesText_congr h.2]

end

/-- The statement of a query is the same with any two catalogs that agree on its mentions, under
whatever table and alias. -/
theorem toSql_congr {query : SelectQuery}
    (h : SameLookups (Harvest.mentions.query query) first second) (table : String)
    (alias? : Option String) (append : Sql.Append) :
    query.toSql first table alias? append = query.toSql second table alias? append := by
  rw [SelectQuery.toSql, SelectQuery.toSql, expand_congr h]

end DescriptorSql
