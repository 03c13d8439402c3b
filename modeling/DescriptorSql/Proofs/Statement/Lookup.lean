import DescriptorSql.Proofs.Compile.Lookup
import DescriptorSql.Proofs.Statement.Correlation

/-!
# `Proofs/Statement/Lookup.lean` — the catalog behind a statement

A statement depends on the catalog through the relations that the operation mentions
(`Statement.compile_withCatalog`): two catalogs that agree on them give the same statement or the
same error. What the catalog holds besides, and in what order it holds it, makes no difference.
-/

set_option autoImplicit false

namespace DescriptorSql

/-! ## The mentions of a statement -/

/-- Every place of a conflict rule that names a relation. -/
def ConflictSpec.mentions (spec : ConflictSpec) : List Reference :=
  match spec.action with
  | .doNothing => []
  | .doUpdate _ filter => Harvest.mentions.filterOnly filter

namespace Statement

/-- Every place of the operation that names a relation, also in conditions that others are laid
over. -/
def mentions : Statement → List Reference
  | find params => Harvest.mentions.query params.query
  | insertOne params => params.onConflict.toList.flatMap ConflictSpec.mentions
  | insertMany params => params.onConflict.toList.flatMap ConflictSpec.mentions
  | update params => Harvest.mentions.filterOnly params.filter
  | delete params => Harvest.mentions.filterOnly params.filter

/-- The same operation with another catalog. -/
def withCatalog (catalog : Catalog) : Statement → Statement
  | find params => find { params with relations := catalog }
  | insertOne params => insertOne { params with relations := catalog }
  | insertMany params => insertMany { params with relations := catalog }
  | update params => update { params with relations := catalog }
  | delete params => delete { params with relations := catalog }

end Statement

/-! ## Conditions and conflict rules -/

section

variable {first second : Catalog}

theorem conditionText_congr {filter : Option Predicate}
    (h : SameLookups (Harvest.mentions.filterOnly filter) first second) :
    conditionText first filter = conditionText second filter := by
  match filter with
  | none => rfl
  | some (.ofEntries entries) =>
    rw [Harvest.filterOnly, Harvest.filter, List.flatMap_singleton] at h
    have hentries : entryClauses first entries = entryClauses second entries := entryClauses_congr h
    simp only [conditionText, Predicate.toSql, Predicate.entries, hentries]

theorem clause_congr {spec : ConflictSpec} (h : SameLookups spec.mentions first second) :
    spec.clause first = spec.clause second := by
  obtain ⟨columns, constraint, rule⟩ := spec
  have hrule : ConflictSpec.rule first rule = ConflictSpec.rule second rule := by
    cases rule with
    | doNothing => rfl
    | doUpdate data filter =>
      cases data with
      | nil => rfl
      | cons member rest => simp only [ConflictSpec.rule, conditionText_congr h]
  rw [ConflictSpec.clause, ConflictSpec.clause, hrule]

theorem insert_congr {params : InsertParams}
    (h : SameLookups (params.onConflict.toList.flatMap ConflictSpec.mentions) first second)
    (columns : List String) (rows : List (List Json)) :
    { params with relations := first }.statement columns rows =
      { params with relations := second }.statement columns rows := by
  have hconflict : params.onConflict.mapM (ConflictSpec.clause first) =
      params.onConflict.mapM (ConflictSpec.clause second) := by
    cases hspec : params.onConflict with
    | none => rfl
    | some spec =>
      rw [hspec, Option.toList_some, List.flatMap_singleton] at h
      rw [Option.mapM_some, Option.mapM_some, clause_congr h]
  simp only [InsertParams.statement, hconflict]

end

namespace Statement

theorem compile_congr {statement : Statement} {first second : Catalog}
    (h : SameLookups statement.mentions first second) :
    (statement.withCatalog first).compile = (statement.withCatalog second).compile := by
  cases statement with
  | find params => simp only [withCatalog, compile, FindParams.find, toSql_congr h]
  | insertOne params =>
    simp only [withCatalog, compile, InsertParams.insertOne, insert_congr h]
  | insertMany params =>
    simp only [withCatalog, compile, InsertParams.insertMany, insert_congr h]
  | update params => simp only [withCatalog, compile, UpdateParams.update, conditionText_congr h]
  | delete params => simp only [withCatalog, compile, DeleteParams.delete, conditionText_congr h]

/-- The entries of a catalog that the operation mentions. -/
def mentioned (statement : Statement) (catalog : Catalog) : Catalog :=
  catalog.filter fun entry => decide (entry.1 ∈ statement.mentions.map Reference.name)

/-- What is not mentioned is not looked up, and neither is the order of the entries. -/
theorem sameLookups_of_perm {statement : Statement} {first second : Catalog}
    (hnodup : (Entries.keys first).Nodup)
    (hperm : (statement.mentioned first).Perm (statement.mentioned second)) :
    SameLookups statement.mentions first second := by
  intro reference hreference
  have hkey : decide (reference.name ∈ statement.mentions.map Reference.name) = true :=
    decide_eq_true (List.mem_map_of_mem hreference)
  have hmentioned : (Entries.keys (statement.mentioned first)).Nodup :=
    (List.filter_sublist.map Prod.fst).nodup hnodup
  have hlookup : ∀ catalog : Catalog,
      Entries.get? (statement.mentioned catalog) reference.name =
        Entries.get? catalog reference.name := fun catalog =>
    Entries.get?_filter (fun key => decide (key ∈ statement.mentions.map Reference.name))
      catalog hkey
  rw [← hlookup first, ← hlookup second]
  exact Entries.get?_eq_of_perm hmentioned hperm _

/-- Two catalogs with the same relations under the names that the operation mentions give the same
statement, or the same error. So neither the order of a catalog nor the relations that are not
mentioned make a difference; and the key of a subquery with a table of its own is no mention, in an
operator's operand or in an existence test. -/
theorem compile_withCatalog (statement : Statement) :
    (∀ first second, SameLookups statement.mentions first second →
      (statement.withCatalog first).compile = (statement.withCatalog second).compile) ∧
    (∀ first second, (Entries.keys first).Nodup →
      (statement.mentioned first).Perm (statement.mentioned second) →
        (statement.withCatalog first).compile = (statement.withCatalog second).compile) ∧
    (∀ keyword key table body rest,
      Harvest.mentions.subqueries keyword ((key, ⟨some table, body⟩) :: rest) =
        Harvest.mentions.body body ++ Harvest.mentions.subqueries keyword rest) ∧
    (∀ key table body rest,
      Harvest.mentions.existence ((key, .rowsOf ⟨some table, body⟩) :: rest) =
        Harvest.mentions.body body ++ Harvest.mentions.existence rest) := by
  refine ⟨fun first second h => compile_congr h, fun first second hnodup hperm => ?_, ?_, ?_⟩
  · exact compile_congr (sameLookups_of_perm hnodup hperm)
  · intro keyword key table body rest
    rw [Harvest.subqueries]
    rfl
  · intro key table body rest
    rw [Harvest.existence]
    rfl

/-- Artists with albums nested into them, that are in the rows of a genre and have a row in a table
that is no relation. -/
def genreStatement : Statement :=
  find ⟨"artists", none, .mk { QueryBody.empty with
      filter := some (.ofEntries
        [("id", .comparisons [(.isIn, .subqueries [("genre", SubQuery.empty)])]),
          ("exists", .existence [("own", .rowsOf ⟨some "reviews", QueryBody.empty⟩)])]) }
    [("albums", SelectQuery.empty)], []⟩

/-- The relations of `genreStatement` in another order, under a key that a table of its own stands
for, and among others. -/
def genreCatalog : Catalog :=
  [("own", ⟨.one, "owners", "id", "artists", "owner_id", none, none⟩),
    ("genre", ⟨.one, "genres", "id", "artists", "genre_id", none, none⟩)] ++ albumCatalog ++
    [("label", ⟨.one, "labels", "id", "artists", "label_id", none, none⟩)]

theorem compile_withCatalog_genreCatalog :
    ((Entries.keys (genreCatalog.drop 1).reverse).Nodup ∧
      (genreStatement.mentioned (genreCatalog.drop 1).reverse).Perm
        (genreStatement.mentioned genreCatalog) ∧
      SameLookups genreStatement.mentions (genreCatalog.drop 1).reverse genreCatalog) ∧
      (genreStatement.withCatalog (genreCatalog.drop 1).reverse).compile =
        (genreStatement.withCatalog genreCatalog).compile ∧
      ∃ sql, (genreStatement.withCatalog genreCatalog).compile = .ok sql := by
  have hnodup : (Entries.keys (genreCatalog.drop 1).reverse).Nodup := by decide
  have hperm : (genreStatement.mentioned (genreCatalog.drop 1).reverse).Perm
      (genreStatement.mentioned genreCatalog) := by decide
  have hsame : SameLookups genreStatement.mentions (genreCatalog.drop 1).reverse genreCatalog := by
    decide
  have hok : ∃ sql, (genreStatement.withCatalog genreCatalog).compile = .ok sql :=
    exists_eq_ok (by decide)
  obtain ⟨hlookups, hentries, -, -⟩ := genreStatement.compile_withCatalog
  exact ⟨⟨hnodup, hperm, hsame⟩, (hlookups _ _ hsame).trans (hentries _ _ hnodup hperm ▸ rfl), hok⟩

end Statement

end DescriptorSql
