import DescriptorSql.Proofs.Compile.AlikeSelect
import DescriptorSql.Proofs.Compile.Numbered

/-!
# `Proofs/Compile/NumberedSelect.lean` — nested queries with numbered values

The relations that are nested into a query stand in lateral subqueries in front of its joins, so
their names come first: numbers are put into the nested queries, and then into the query itself.
-/

set_option autoImplicit false

namespace DescriptorSql

open Binding (Lifts SlotNumbers)
open Sql (ClosesApart NoAt OpensApart startsApart)

variable {values : Entries String Json} {catalog : Catalog}

/-! ## Lateral joins -/

/-- Nothing is joined for an empty subquery. -/
theorem lateralJoin_eq (subquery : String) :
    Sql.lateralJoin subquery =
      if subquery.isEmpty then "" else " LEFT JOIN LATERAL (" ++ subquery ++ ") ON TRUE" := by
  unfold Sql.lateralJoin
  split
  · rfl
  · rw [← String.toList_inj]
    simp [Sql.spaced, Sql.parenthesized, Sql.Token.text, Sql.Keyword.text]

/-- The lateral joins begin with a blank, so a name in front of them ends there. -/
theorem startsApart_includesText {includes : List (String × SelectQuery)} {text : String}
    (hok : includesText catalog includes = .ok text) : startsApart text.toList = true := by
  induction includes generalizing text with
  | nil =>
    cases hok
    rfl
  | cons entry rest ih =>
    obtain ⟨name, query⟩ := entry
    rw [includesText] at hok
    obtain ⟨relation, -, hok⟩ := exists_of_bind_eq_ok hok
    obtain ⟨expansion, -, hok⟩ := exists_of_bind_eq_ok hok
    obtain ⟨others, hothers, hok⟩ := exists_of_bind_eq_ok hok
    cases hok
    rw [String.toList_append]
    refine Sql.startsApart_append_of ?_ (ih hothers)
    rw [lateralJoin_eq]
    split
    · rfl
    · rw [String.append_assoc, String.toList_append]
      exact Sql.startsApart_append _ (by decide) (by decide)

/-- Numbers are put into a lateral join by putting them into its subquery. -/
theorem lifts_lateralJoin {subquery : String} {P : SlotNumbers → String → Prop}
    (h : Lifts values subquery P) :
    Lifts values (Sql.lateralJoin subquery) fun numbers text =>
      ∃ subquery', text = Sql.lateralJoin subquery' ∧ P numbers subquery' := by
  by_cases hempty : subquery.isEmpty = true
  · obtain rfl := String.isEmpty_iff.mp hempty
    refine h.isEmpty.mono ?_
    rintro numbers text ⟨htext, hsame⟩
    obtain rfl := String.isEmpty_iff.mp (hsame.trans rfl)
    exact ⟨"", rfl, htext⟩
  · have hjoin := h.isEmpty.enclosed (show OpensApart " LEFT JOIN LATERAL (" by decide)
      (show ClosesApart ") ON TRUE" by decide)
    rw [lateralJoin_eq, if_neg hempty]
    refine hjoin.mono ?_
    rintro numbers _ ⟨subquery', rfl, hsubquery, hsame⟩
    refine ⟨subquery', ?_, hsubquery⟩
    rw [lateralJoin_eq, hsame, if_neg hempty]

/-! ## Queries -/

/-- Whatever SELECT over its expansion is compiled from the query lifts. -/
def CarriesQuery (values : Entries String Json) (catalog : Catalog) (query : SelectQuery) : Prop :=
  ∀ ⦃columns source : String⦄ ⦃append : Sql.Append⦄ ⦃expansion : Expansion⦄, NoAt columns →
    NoAt source → append.join = none → (∀ sql ∈ append.filter, NoAt sql) →
    query.expand catalog = .ok expansion →
    Lifts values (selectStatement columns source query.body expansion append) fun numbers text =>
      ∃ query' expansion', SelectQuery.Related (Json.Numbered numbers) query query' ∧
        query'.expand catalog = .ok expansion' ∧
        text = selectStatement columns source query'.body expansion' append

/-- The columns have no named values, so they stay when the values get numbers. -/
theorem noAt_outputColumns {query : SelectQuery}
    (h : AllNamed values (Harvest.written.query query)) :
    NoAtColumns query.outputColumns := by
  obtain ⟨body, includes⟩ := query
  obtain ⟨hincludes, hbody⟩ := List.forall_mem_append.mp h
  have hnamed := (allNamed_body hbody).1
  refine hnamed.outputColumns hnamed.select ?_
  show ∀ name ∈ Entries.keys includes, NoAt name
  clear h hbody hnamed
  induction includes with
  | nil => simp [Entries.keys]
  | cons entry rest ih =>
    obtain ⟨name, query⟩ := entry
    obtain ⟨h, hrest⟩ := List.forall_mem_append.mp hincludes
    exact List.forall_mem_cons.mpr ⟨noAt_of_name (List.forall_mem_append.mp h).1, ih hrest⟩

theorem noAt_nestedHead {key : String} (hkey : NoAt key) (relation : Relation) :
    NoAt (nestedHead key relation) := by
  have hname := Sql.noAt_identifier hkey
  have hselect : NoAt "SELECT " := by decide
  have haggregate : NoAt "SELECT jsonb_agg" ∧ NoAt "(" ∧ NoAt ")" ∧ NoAt " AS " := by decide
  unfold nestedHead
  split
  · simp only [Sql.noAt_append]
    exact ⟨⟨⟨⟨⟨haggregate.1, haggregate.2.1⟩, hname⟩, haggregate.2.2.1⟩, haggregate.2.2.2⟩, hname⟩
  · rw [Sql.noAt_append]
    exact ⟨hselect, hname⟩

/-- The names in a nested statement are those of its own body. Its head and its correlation have
none. -/
theorem CarriesQuery.lifts_nested {query : SelectQuery} (h : CarriesQuery values catalog query)
    {key : String} (hkey : NoAt key) {relation : Relation} (hrelation : Sql.NoAtRelation relation)
    (hcolumns : NoAtColumns query.outputColumns) {expansion : Expansion}
    (hok : query.expand catalog = .ok expansion) :
    Lifts values (nestedStatement key relation query expansion) fun numbers text =>
      ∃ query' expansion', SelectQuery.Related (Json.Numbered numbers) query query' ∧
        query'.expand catalog = .ok expansion' ∧
        text = nestedStatement key relation query' expansion' := by
  have hfilter : ∀ sql ∈ (Sql.Append.condition (Sql.correlation relation)).filter, NoAt sql := by
    rintro _ ⟨⟩
    exact hrelation.correlation
  have hbody := h (hcolumns.objectList hkey) hrelation.relationSource rfl hfilter hok
  have hlead : OpensApart (nestedHead key relation ++ " FROM (") :=
    (noAt_nestedHead hkey relation).opensApart (by decide) (by simp)
  have htext : ∀ (query : SelectQuery) (expansion : Expansion),
      nestedStatement key relation query expansion =
        nestedHead key relation ++ " FROM (" ++ nestedBody key relation query
          expansion ++ ") " := by
    intro query expansion
    rw [nestedStatement_eq, ← String.toList_inj]
    simp
  rw [htext]
  refine (hbody.enclosed hlead (show ClosesApart ") " by decide)).mono ?_
  rintro numbers _ ⟨_, rfl, query', expansion', hrelated, hexpansion', rfl⟩
  refine ⟨query', expansion', hrelated, hexpansion', ?_⟩
  rw [htext, nestedBody, hrelated.outputColumns_eq]

mutual

/-- The values of a query have their numbers from the whole statement, in the order in which its
texts stand in it: nested relations first, then the body. -/
theorem carries_query (hcatalog : AllNamed values catalog.written) :
    ∀ {query : SelectQuery}, AllNamed values (Harvest.written.query query) →
      CarriesQuery values catalog query
  | .mk body includes, h => by
    obtain ⟨hincludes, hbody⟩ := List.forall_mem_append.mp h
    intro columns source append expansion hcolumns hsource hjoin happend hok
    obtain ⟨laterals, hlaterals, hok⟩ := exists_of_bind_eq_ok hok
    obtain ⟨own, hown, hok⟩ := exists_of_bind_eq_ok hok
    cases hok
    refine ((carries_body hcatalog hbody).lifts_select hcatalog hcolumns hsource hjoin happend
      (lifts_includes hcatalog hincludes hlaterals) (startsApart_includesText hlaterals) hown).mono
        ?_
    rintro numbers _
      ⟨body', own', laterals', hbody', hown', ⟨includes', hincludes', hlaterals'⟩, rfl⟩
    refine ⟨.mk body' includes', own'.behind laterals', .mk hbody' hincludes', ?_, rfl⟩
    rw [SelectQuery.expand, hlaterals', hown']
    rfl

/-- What one nested relation needs of the numbers does not conflict with what the others need, since
all of them read the same assignment of numbers to slots. -/
theorem lifts_includes (hcatalog : AllNamed values catalog.written) :
    ∀ {includes : List (String × SelectQuery)},
      AllNamed values (Harvest.written.includes includes) →
      ∀ {text : String}, includesText catalog includes = .ok text →
        Lifts values text fun numbers text' => ∃ includes',
          List.Forall₂ (Keyed (SelectQuery.Related (Json.Numbered numbers))) includes includes' ∧
            includesText catalog includes' = .ok text'
  | [], _, _, hok => by
    cases hok
    refine (Lifts.ofNoAt (show NoAt "" by decide)).mono ?_
    rintro numbers _ rfl
    exact ⟨[], .nil, rfl⟩
  | (name, query) :: rest, h, _, hok => by
    obtain ⟨h, hrest⟩ := List.forall_mem_append.mp h
    obtain ⟨hname, hquery⟩ := List.forall_mem_append.mp h
    obtain ⟨relation, hrelation, hok⟩ := exists_of_bind_eq_ok hok
    obtain ⟨expansion, hexpansion, hok⟩ := exists_of_bind_eq_ok hok
    obtain ⟨others, hothers, hok⟩ := exists_of_bind_eq_ok hok
    cases hok
    have hnested := (carries_query hcatalog hquery).lifts_nested (noAt_of_name hname)
      (catalog.noAt_of_resolve hcatalog hrelation) (noAt_outputColumns hquery) hexpansion
    refine ((lifts_lateralJoin hnested).append (lifts_includes hcatalog hrest hothers)
      (Or.inl (startsApart_includesText hothers))).mono ?_
    rintro numbers _ ⟨_, others', rfl, ⟨_, rfl, query', expansion', hrelated, hexpansion', rfl⟩,
      rest', hrest', hothers'⟩
    refine ⟨(name, query') :: rest', .cons (.mk hrelated) hrest', ?_⟩
    rw [includesText, hrelation, hexpansion', hothers']
    rfl

end

/-- A query over a table: with numbers in its slots it is compiled from the query with numbers. -/
theorem lifts_query (hcatalog : AllNamed values catalog.written) {table : String}
    {alias? : Option String} (htable : NoAt table) (halias : ∀ name ∈ alias?, NoAt name)
    {query : SelectQuery} (hquery : AllNamed values (Harvest.written.query query)) {text : String}
    (hok : query.toSql catalog table alias? {} = .ok text) :
    Lifts values text fun numbers text' => ∃ query',
      SelectQuery.Related (Json.Numbered numbers) query query' ∧
        query'.toSql catalog table alias? {} = .ok text' := by
  obtain ⟨expansion, hexpansion, hok⟩ := exists_of_bind_eq_ok hok
  rw [← Except.ok.inj hok]
  refine (carries_query hcatalog hquery (noAt_outputColumns hquery).selectList
    (Sql.noAt_tableRef htable halias) rfl (by simp) hexpansion).mono ?_
  rintro numbers _ ⟨query', expansion', hrelated, hexpansion', rfl⟩
  refine ⟨query', hrelated, ?_⟩
  rw [SelectQuery.toSql, hexpansion', hrelated.outputColumns_eq]
  rfl

end DescriptorSql
