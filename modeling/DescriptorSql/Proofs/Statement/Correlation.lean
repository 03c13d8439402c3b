import DescriptorSql.Proofs.Compile.Correlation
import DescriptorSql.Proofs.Statement.Written

/-!
# `Proofs/Statement/Correlation.lean` — correlation cannot be bypassed

Wherever one of the five operations refers to a relation by nesting it or by a subquery without a
table of its own, a SELECT over the relation's rows stands in the statement, and it is tied to the
row around it, whatever conditions the descriptor gives it (`Statement.filterEndsWith_correlation`).
-/

set_option autoImplicit false

namespace DescriptorSql

/-! ## The references of a statement -/

def ConflictSpec.references (spec : ConflictSpec) : List Reference :=
  match spec.action with
  | .doNothing => []
  | .doUpdate _ filter => Harvest.references.filterOnly filter

namespace Statement

/-- The relations that the operation can refer to. -/
def catalog : Statement → Catalog
  | find params => params.relations
  | insertOne params => params.relations
  | insertMany params => params.relations
  | update params => params.relations
  | delete params => params.relations

def references : Statement → List Reference
  | find params => Harvest.references.query params.query
  | insertOne params => params.onConflict.toList.flatMap ConflictSpec.references
  | insertMany params => params.onConflict.toList.flatMap ConflictSpec.references
  | update params => Harvest.references.filterOnly params.filter
  | delete params => Harvest.references.filterOnly params.filter

end Statement

section

variable {catalog : Catalog}

/-! ## Conditions -/

theorem shows_conditionText {filter : Option Predicate} {text? : Option String}
    (hok : conditionText catalog filter = .ok text?) :
    Shows catalog text?.toList (Harvest.references.filterOnly filter) := by
  cases filter with
  | none => exact .nil _
  | some predicate =>
    obtain ⟨sql, hsql, rfl⟩ := exists_of_map_eq_ok hok
    obtain ⟨clauses, hclauses, rfl⟩ := exists_of_map_eq_ok hsql
    have hshows := (shows_gather (shows_entryClauses predicate.entries) hclauses).join .and
    have hreferences : Harvest.references.filterOnly (some predicate) =
        Harvest.all (Harvest.references.entries predicate.entries) := by
      obtain ⟨entries⟩ := predicate
      simp [Harvest.filterOnly, Harvest.filter, Predicate.entries]
    rw [hreferences]
    refine hshows.mono fun text htext hne => ⟨text, ?_, .refl text⟩
    rw [List.mem_singleton] at htext
    rw [← htext, Sql.Clauses.present_eq hne]
    exact List.mem_cons_self

theorem Shows.clauses {clauses : Sql.Clauses} {references : List Reference}
    (h : Shows catalog clauses.filter.toList references) (append : Sql.Append) :
    Shows catalog [clauses.toSql append] references :=
  Shows.trim (h.mono fun _ htext hne =>
    ⟨_, List.mem_cons_self, contains_tokens hne (Or.inr (Or.inl (Option.mem_toList.mp htext)))⟩)

/-! ## Inserts -/

theorem shows_clause {spec : ConflictSpec} {conflict : Sql.OnConflict}
    (hok : spec.clause catalog = .ok conflict) :
    Shows catalog [Sql.serialize conflict.tokens] spec.references := by
  obtain ⟨target, -, hok⟩ := exists_of_bind_eq_ok hok
  obtain ⟨action, haction, hok⟩ := exists_of_bind_eq_ok hok
  cases hok
  obtain ⟨columns, constraint, rule⟩ := spec
  cases rule with
  | doNothing => exact .nil _
  | doUpdate data filter =>
    cases data with
    | nil => cases haction
    | cons member rest =>
      obtain ⟨text?, htext, rfl⟩ := exists_of_map_eq_ok haction
      refine (shows_conditionText htext).mono fun text hmem hne => ⟨_, List.mem_cons_self, ?_⟩
      have hwhere :
          Contains (Sql.serialize (Sql.spaced [.keyword .«where», .fragment text])) text :=
        @contains_spaced _ (.fragment text) (by simp)
      have haction : Sql.OnConflict.actionTokens (.doUpdate (member :: rest) text?) =
          [.keyword .update, .space, .keyword .set, .space] ++ Sql.assignments (member :: rest) ++
            Sql.spaced [.keyword .«where», .fragment text] := by
        have hpresent := Sql.Clauses.present_eq hne
        rw [Sql.present] at hpresent
        rw [Sql.OnConflict.actionTokens, Option.mem_toList.mp hmem, hpresent]
      simp only [Sql.OnConflict.tokens, haction, Sql.serialize_append]
      exact (hwhere.append_left _).append_left _

theorem shows_insert {params : InsertParams} {columns : List String} {rows : List (List Json)}
    {sql : String} (hok : params.statement columns rows = .ok sql) :
    Shows params.relations [sql] (params.onConflict.toList.flatMap ConflictSpec.references) := by
  obtain ⟨conflict?, hconflict, hok⟩ := exists_of_bind_eq_ok hok
  rw [← Except.ok.inj hok]
  cases hspec : params.onConflict with
  | none => exact .nil _
  | some spec =>
    rw [hspec, Option.mapM_some] at hconflict
    obtain ⟨conflict, hclause, rfl⟩ := exists_of_map_eq_ok hconflict
    have hshows := shows_clause hclause
    rw [Option.toList_some, List.flatMap_singleton]
    refine hshows.lift ?_
    simp only [Sql.Insert.toSql, Sql.Insert.tokens, Sql.serialize_append, Sql.serialize_cons]
    exact (((Contains.refl _).append_left _).append_left _).append_right _

end

namespace Statement

theorem shows_compile {statement : Statement} {sql : String} (hok : statement.compile = .ok sql) :
    Shows statement.catalog [sql] statement.references := by
  cases statement with
  | find params =>
    obtain ⟨_, -, hok⟩ := exists_of_bind_eq_ok hok
    exact shows_toSql hok
  | insertOne params =>
    obtain ⟨_, -, hok⟩ := exists_of_bind_eq_ok hok
    obtain ⟨_, -, hok⟩ := exists_of_bind_eq_ok hok
    exact shows_insert hok
  | insertMany params =>
    obtain ⟨_, -, hok⟩ := exists_of_bind_eq_ok hok
    split at hok
    · obtain ⟨_, -, hok⟩ := exists_of_bind_eq_ok hok
      obtain ⟨_, -, hok⟩ := exists_of_bind_eq_ok hok
      exact shows_insert hok
    · cases hok
  | update params =>
    obtain ⟨_, -, hok⟩ := exists_of_bind_eq_ok hok
    obtain ⟨_, -, hok⟩ := exists_of_bind_eq_ok hok
    obtain ⟨filter?, hfilter, hok⟩ := exists_of_bind_eq_ok hok
    rw [← Except.ok.inj hok]
    exact (shows_conditionText hfilter).clauses {}
  | delete params =>
    obtain ⟨_, -, hok⟩ := exists_of_bind_eq_ok hok
    obtain ⟨filter?, hfilter, hok⟩ := exists_of_bind_eq_ok hok
    rw [← Except.ok.inj hok]
    exact (shows_conditionText hfilter).clauses {}

/-! ## Correlation -/

/-- What is written in the places of a plain operation is plain, and so is its catalog. -/
theorem plain_of_mem_references {statement : Statement} (h : AllPlain statement.written)
    {reference : Reference} (hreference : reference ∈ statement.references) :
    AllPlain reference.written ∧ AllPlain statement.catalog.written := by
  -- an INSERT refers to relations in the condition of its conflict rule and nowhere else
  have hconflict : ∀ {params : InsertParams}, AllPlain params.frameWritten →
      reference ∈ params.onConflict.toList.flatMap ConflictSpec.references →
      AllPlain reference.written ∧ AllPlain params.relations.written := by
    intro params hframe hmem
    simp only [InsertParams.frameWritten, allPlain_append] at hframe
    obtain ⟨⟨-, hspecs⟩, hcatalog⟩ := hframe
    obtain ⟨spec, hspec, hmem⟩ := List.mem_flatMap.mp hmem
    obtain ⟨-, hrule⟩ := allPlain_append.mp (allPlain_flatMap.mp hspecs spec hspec)
    unfold ConflictSpec.references at hmem
    split at hmem
    · cases hmem
    · next data filter haction =>
      rw [haction] at hrule
      exact ⟨(allPlain_append.mp hrule).2.subset (Harvest.written_subset_filter hmem), hcatalog⟩
  cases statement with
  | find params =>
    simp only [written, allPlain_append] at h
    exact ⟨h.1.2.subset (Harvest.written_subset_query hreference), h.2⟩
  | insertOne params => exact hconflict (allPlain_append.mp h).1 hreference
  | insertMany params => exact hconflict (allPlain_append.mp h).1 hreference
  | update params =>
    simp only [written, allPlain_append] at h
    exact ⟨h.1.1.2.subset (Harvest.written_subset_filter hreference), h.2⟩
  | delete params =>
    simp only [written, allPlain_append] at h
    exact ⟨h.1.1.2.subset (Harvest.written_subset_filter hreference), h.2⟩

/-- Every SELECT over the rows of a relation that a plain operation refers to stands in the
statement, has a condition without an OR outside of parentheses, and the correlation is the last
that AND connects in the condition. -/
theorem filterEndsWith_correlation (statement : Statement) (hplain : AllPlain statement.written)
    (sql : String) (hok : statement.compile = .ok sql) :
    ∀ reference ∈ statement.references, (∃ name, reference = .joined name) ∨
      ∃ relation select, statement.catalog.resolve reference.name = .ok relation ∧
        reference.Selects statement.catalog relation select ∧
        Contains sql (reference.frame relation select) ∧
        Sql.FilterEndsWith select (Text.trim (Sql.correlation relation)) := by
  intro reference hreference
  obtain ⟨hwritten, hcatalog⟩ := plain_of_mem_references hplain hreference
  cases shows_compile hok reference hreference with
  | joined resolved => exact Or.inl ⟨_, rfl⟩
  | @select _ relation select text selects text_mem contained =>
    rw [List.mem_singleton] at text_mem
    subst text_mem
    exact Or.inr ⟨relation, select, selects.resolves, selects, contained,
      filterEndsWith_of_selects hcatalog hwritten selects⟩

/-- The alternatives in the condition of a nested relation stay in parentheses. -/
theorem filterEndsWith_correlation_nestedQuery :
    ∃ sql, (AllPlain (find ⟨"artists", none, nestedQuery, albumCatalog⟩).written ∧
        (find ⟨"artists", none, nestedQuery, albumCatalog⟩).compile = .ok sql) ∧
      ∀ reference ∈ (find ⟨"artists", none, nestedQuery, albumCatalog⟩).references,
        (∃ name, reference = .joined name) ∨
          ∃ relation select, albumCatalog.resolve reference.name = .ok relation ∧
            reference.Selects albumCatalog relation select ∧
            Contains sql (reference.frame relation select) ∧
            Sql.FilterEndsWith select (Text.trim (Sql.correlation relation)) := by
  have hplain : AllPlain (find ⟨"artists", none, nestedQuery, albumCatalog⟩).written := by decide
  obtain ⟨sql, hok⟩ :
      ∃ sql, (find ⟨"artists", none, nestedQuery, albumCatalog⟩).compile = .ok sql :=
    exists_eq_ok (by decide +kernel)
  exact ⟨sql, ⟨hplain, hok⟩, filterEndsWith_correlation _ hplain sql hok⟩

end Statement

end DescriptorSql
