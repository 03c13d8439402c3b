import DescriptorSql.Proofs.Compile.Alike
import DescriptorSql.Compile.Select

/-!
# `Proofs/Compile/AlikeSelect.lean` — queries without their data

The relations nested into a query are joined as lateral subqueries, so what the conditions of a
plain query and of the same query without its data have in common, the whole statements have in
common (`agree_toSql`).
-/

set_option autoImplicit false

namespace DescriptorSql

open Sql (Alike Chunk Grade isPlainName)

variable {catalog : Catalog}

/-! ## Nested relations -/

/-- Changing the values of a query changes those of its body, next to those of its nested relations.
-/
theorem body_mapValues (f : Json → Json) (query : SelectQuery) :
    (query.mapValues f).body = query.body.mapValues f := by
  cases query
  rfl

/-- The names under which relations are nested are no data. -/
theorem keys_mapEntries (f : Json → Json) (includes : List (String × SelectQuery)) :
    Entries.keys (SelectQuery.mapEntries f includes) = Entries.keys includes := by
  induction includes with
  | nil => rfl
  | cons entry rest ih =>
    obtain ⟨name, query⟩ := entry
    rw [SelectQuery.mapEntries, Entries.keys, List.map_cons, ← Entries.keys, ih]
    rfl

/-- What a query selects does not depend on its values. -/
theorem queryColumns_mapValues (f : Json → Json) (query : SelectQuery) :
    (query.mapValues f).outputColumns = query.outputColumns := by
  obtain ⟨body, includes⟩ := query
  have hselect : (body.mapValues f).select = body.select := by cases body; rfl
  have hincludes : ((SelectQuery.mk body includes).mapValues f).includes =
      SelectQuery.mapEntries f includes := rfl
  rw [SelectQuery.outputColumns, body_mapValues, outputColumns_mapValues, hincludes,
    keys_mapEntries]
  show body.outputColumns (body.mapValues f).select _ = _
  rw [hselect]
  rfl

/-- What plainness says about a query but for its conditions, its own and those of nested relations.
-/
structure PlainQuery (query : SelectQuery) : Prop where
  body : PlainBody query.body
  nested : ∀ name ∈ Entries.keys query.includes, isPlainName name = true

theorem PlainQuery.of {query : SelectQuery} (h : AllPlain (Harvest.written.query query)) :
    PlainQuery query := by
  obtain ⟨body, includes⟩ := query
  obtain ⟨hincludes, hbody⟩ := allPlain_append.mp h
  refine ⟨(allPlain_body hbody).1, ?_⟩
  show ∀ name ∈ Entries.keys includes, isPlainName name = true
  clear h hbody
  induction includes with
  | nil => simp [Entries.keys]
  | cons entry rest ih =>
    obtain ⟨name, query⟩ := entry
    rw [Harvest.includes, allPlain_append, allPlain_append] at hincludes
    have hname : isPlainName name = true := hincludes.1.1 (.name name) (by simp [Harvest.written])
    exact List.forall_mem_cons.mpr ⟨hname, ih hincludes.2⟩

theorem PlainQuery.outputColumns {query : SelectQuery} (h : PlainQuery query) :
    PlainColumns query.outputColumns :=
  h.body.outputColumns h.body.select h.nested

/-- The SELECT over the rows of a nested relation, without what turns the rows into one value. -/
def nestedBody (key : String) (relation : Relation) (query : SelectQuery) (expansion : Expansion) :
    String :=
  selectStatement (query.outputColumns.objectList key) (Sql.relationSource relation) query.body
    expansion (.condition (Sql.correlation relation))

/-- What a nested relation gives to the outer query: an array of its rows, or its row. -/
def nestedHead (key : String) (relation : Relation) : String :=
  if relation.isMany then
    "SELECT jsonb_agg" ++ "(" ++ Sql.identifier key ++ ")" ++ " AS " ++ Sql.identifier key
  else "SELECT " ++ Sql.identifier key

/-- The statement of a nested relation, split at the parentheses around its own SELECT. -/
theorem nestedStatement_eq (key : String) (relation : Relation) (query : SelectQuery)
    (expansion : Expansion) :
    nestedStatement key relation query expansion =
      nestedHead key relation ++ " FROM " ++
        ("(" ++ nestedBody key relation query expansion ++ ")") ++
        " " := by
  unfold nestedStatement nestedHead
  dsimp only
  change (if relation.isMany = true then
    "SELECT jsonb_agg(" ++ Sql.identifier key ++ ") AS " ++ Sql.identifier key ++ " FROM (" ++
      nestedBody key relation query expansion ++ ") "
    else "SELECT " ++ Sql.identifier key ++ " FROM (" ++ nestedBody key relation query expansion ++
      ") ") = _
  generalize nestedBody key relation query expansion = body
  split
  · rw [← String.toList_inj]
    simp
  · rw [← String.toList_inj]
    simp

/-- The correlation is put behind the relation's own conditions, so these have to be a condition
without an open OR. -/
theorem alike_nestedBody {key : String} (hkey : isPlainName key = true) {relation : Relation}
    (hrelation : Sql.PlainRelation relation) {query : SelectQuery} (hquery : PlainQuery query)
    {expansion expansion' : Expansion} (hexpansion : AlikeExpansion expansion' expansion)
    (f : Json → Json) :
    Alike .closed (nestedBody key relation (query.mapValues f) expansion')
      (nestedBody key relation query expansion) := by
  have hfilter : Option.Rel (Alike .inert) (Sql.Append.condition (Sql.correlation relation)).filter
      (Sql.Append.condition (Sql.correlation relation)).filter := .some hrelation.alike_correlation
  unfold nestedBody
  rw [queryColumns_mapValues, body_mapValues]
  exact alike_selectStatement (hquery.outputColumns.alike_objectList hkey)
    hrelation.alike_relationSource (sameClauses_mapValues f query.body) hquery.body
      hexpansion hfilter
    rfl

theorem alike_nestedHead {key : String} (hkey : isPlainName key = true) (relation : Relation) :
    Alike .inert (nestedHead key relation) (nestedHead key relation) := by
  have hname := Sql.alike_identifier hkey
  unfold nestedHead
  split
  · have haggregate : Alike .inert "SELECT jsonb_agg" "SELECT jsonb_agg" :=
      .ofAccepts (by decide)
    exact (Alike.call haggregate hname.toClosed).glue hname (Grade.separates_as _)
  · exact hname.behind (show Grade.inert.accepts "SELECT " = true by decide) (by decide)

/-- What is in the parentheses is closed, and behind them is the blank alone. -/
theorem alike_nestedStatement {key : String} (hkey : isPlainName key = true) {relation : Relation}
    (hrelation : Sql.PlainRelation relation) {query : SelectQuery} (hquery : PlainQuery query)
    {expansion expansion' : Expansion} (hexpansion : AlikeExpansion expansion' expansion)
    (f : Json → Json) :
    Alike .closed (nestedStatement key relation (query.mapValues f) expansion')
      (nestedStatement key relation query expansion) := by
  have hbody := (alike_nestedBody hkey hrelation hquery hexpansion f).parenthesized
  have hspace : Chunk .inert " " " " := by
    simpa using Chunk.space (.ofAccepts (show Grade.inert.accepts "" = true by decide))
  rw [nestedStatement_eq, nestedStatement_eq]
  exact (((alike_nestedHead hkey relation).glue hbody
    (show Grade.inert.separates " FROM " = true by decide)).chunk
    hspace).toClosed

mutual

/-- The induction is on how deep relations are nested. Each is looked up under the same name with
data and without, so both runs fail together. -/
theorem agree_expand (hcatalog : AllPlain catalog.written) :
    ∀ {query : SelectQuery}, AllPlain (Harvest.written.query query) →
      Agree AlikeExpansion ((query.mapValues Json.withoutData).expand catalog)
        (query.expand catalog)
  | .mk _ _, h =>
    have h := allPlain_append.mp h
    (agree_includesText hcatalog h.1).bind fun _ _ _ _ hlaterals =>
      (agree_expandBody hcatalog h.2).bind fun _ _ _ _ hexpansion =>
        AlikeExpansion.mk (hlaterals.append hexpansion.joins) hexpansion.filter hexpansion.having

theorem agree_includesText (hcatalog : AllPlain catalog.written) :
    ∀ {includes : List (String × SelectQuery)}, AllPlain (Harvest.written.includes includes) →
      Agree (Chunk .inert) (includesText catalog (SelectQuery.mapEntries Json.withoutData includes))
        (includesText catalog includes)
  | [], _ => Chunk.nil
  | (name, query) :: rest, h => by
    rw [Harvest.includes, allPlain_append, allPlain_append] at h
    obtain ⟨⟨hname, hquery⟩, hrest⟩ := h
    have hname : isPlainName name = true := hname (.name name) (by simp [Harvest.written])
    apply Agree.bind_same
    intro relation hok
    have hrelation := catalog.plain_of_resolve hcatalog hok
    refine (agree_expand hcatalog hquery).bind fun _ _ _ _ hexpansion =>
      (agree_includesText hcatalog hrest).bind fun _ _ _ _ hothers => Chunk.append ?_ hothers
    exact Sql.chunk_lateralJoin (alike_nestedStatement hname hrelation (.of hquery) hexpansion _)

end

/-- A plain query and the same query without its data compile alike. -/
theorem agree_toSql (hcatalog : AllPlain catalog.written) {table : String} {alias? : Option String}
    (htable : isPlainName table = true)
    (halias : ∀ name, alias? = some name → isPlainName name = true) {query : SelectQuery}
    (hquery : AllPlain (Harvest.written.query query)) :
    Agree (Alike .closed) ((query.mapValues Json.withoutData).toSql catalog table alias? {})
      (query.toSql catalog table alias? {}) := by
  apply (agree_expand hcatalog hquery).bind
  intro _ _ _ _ hexpansion
  have hplain := PlainQuery.of hquery
  have hfilter :
      Option.Rel (Alike .inert) ({} : Sql.Append).filter ({} : Sql.Append).filter := .none
  rw [queryColumns_mapValues, body_mapValues]
  exact alike_selectStatement hplain.outputColumns.alike_selectList
    (Sql.alike_tableRef htable halias) (sameClauses_mapValues _ query.body) hplain.body hexpansion
    hfilter rfl

end DescriptorSql
