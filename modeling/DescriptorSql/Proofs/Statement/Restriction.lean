import DescriptorSql.Proofs.Compile.Emptiness
import DescriptorSql.Proofs.Statement.Bound

/-!
# `Proofs/Statement/Restriction.lean` — which rows a statement changes

An UPDATE, a DELETE and the UPDATE of a conflict rule are restricted by the condition of the
descriptor, and they change every row only if the condition demands nothing
(`Statement.compile_restricted`). The condition is tested for being empty in three places, when it
is compiled and twice on its way into the statement; by `Predicate.toSql_isEmpty` all three tests
ask the same.
-/

set_option autoImplicit false

namespace DescriptorSql

/-- The WHERE clause that a condition becomes: the whole condition, and nothing if it demands
nothing. -/
inductive Restricts (catalog : Catalog) : Option Predicate → String → Prop
  | absent : Restricts catalog none ""
  | silent {predicate : Predicate} (demands : predicate.hasAtom = false)
      (compiled : predicate.toSql catalog .and = .ok "") : Restricts catalog (some predicate) ""
  | whole {predicate : Predicate} {sql : String} (demands : predicate.hasAtom = true)
      (compiled : predicate.toSql catalog .and = .ok sql) (ne_empty : sql ≠ "") :
      Restricts catalog (some predicate) (" WHERE " ++ sql)

variable {catalog : Catalog}

theorem restricts_conditionText {filter : Option Predicate} {text? : Option String}
    (hok : conditionText catalog filter = .ok text?) :
    Restricts catalog filter (Sql.phrase " WHERE " " AND " (Sql.present text?).toList) := by
  cases filter with
  | none =>
    cases hok
    exact .absent
  | some predicate =>
    obtain ⟨sql, hsql, rfl⟩ := exists_of_map_eq_ok hok
    have hempty := predicate.toSql_isEmpty catalog .and sql hsql
    cases hdemands : predicate.hasAtom with
    | false =>
      rw [hdemands, Bool.not_false, String.isEmpty_iff] at hempty
      subst hempty
      exact .silent hdemands hsql
    | true =>
      have hne : sql ≠ "" := by
        rintro rfl
        rw [hdemands] at hempty
        cases hempty
      rw [Sql.Clauses.present_eq hne, Sql.Clauses.present_eq hne, Option.toList_some, Sql.phrase,
        List.isEmpty_cons, if_neg (by decide), String.intercalate_singleton]
      exact .whole hdemands hsql hne

/-! ## Texts of statements -/

namespace Sql

/-- A statement of a head, a condition and the columns to return. -/
theorem toSql_returning (head : String) (filter : Option String) (returning : List String) :
    Clauses.toSql { head := head, filter := filter, returning := returning } {} =
      Text.trim (head ++ phrase " WHERE " " AND " (present filter).toList ++
        serialize (namesClause .returning returning)) := by
  have hfront : ∀ clauses : Clauses, clauses.joins = "" → clauses.front {} = clauses.head := by
    intro clauses hjoins
    simp [Clauses.front, hjoins, present]
  have hback : Clauses.back { head := head, filter := filter, returning := returning } =
      serialize (namesClause .returning returning) := by
    simp [Clauses.back, namesClause, Clauses.havingTokens, Clauses.orderTokens,
      Clauses.boundTokens, present]
  have hnone : (present (none : Option String)).toList = [] := rfl
  rw [Clauses.toSql, Clauses.serialize_tokens, Clauses.serialize_filterTokens, hfront _ rfl, hback,
    hnone, List.append_nil]

/-- The conflict rule of an INSERT stands between the rows and the columns to return. -/
theorem insert_doUpdate (table : String) (columns : List String) (rows : List (List Json))
    (target : ConflictTarget) (assigned : Entries String Json) (filter : Option String)
    (returning : List String) :
    Insert.toSql ⟨table, columns, rows, some ⟨target, .doUpdate assigned filter⟩, returning⟩ =
      Insert.toSql ⟨table, columns, rows, none, []⟩ ++ " ON CONFLICT " ++
        serialize (OnConflict.targetTokens target) ++ " DO UPDATE SET " ++
        serialize (assignments assigned) ++ phrase " WHERE " " AND " (present filter).toList ++
        serialize (namesClause .returning returning) := by
  have hnone : serialize (namesClause .returning []) = "" := rfl
  have hconflict : " ON CONFLICT " = " " ++ "ON CONFLICT " := by decide
  have hupdate : " DO UPDATE SET " = " DO " ++ "UPDATE SET " := by decide
  simp only [Insert.toSql, Insert.tokens, serialize_append, serialize_cons, serialize_conflict,
    serialize_actionTokens, hnone]
  simp only [Token.text, serialize_nil, hconflict, hupdate, String.append_assoc,
    String.append_empty]

end Sql

theorem exists_of_statement {params : InsertParams} {columns? : Option (List String)}
    {constraint : Option String} {data : Entries String Json} {filter : Option Predicate}
    (hconflict : params.onConflict = some ⟨columns?, constraint, .doUpdate data filter⟩)
    {columns : List String} {rows : List (List Json)} {sql : String}
    (hok : params.statement columns rows = .ok sql) :
    ∃ target restriction, Restricts params.relations filter restriction ∧
      sql = Sql.Insert.toSql ⟨params.table, columns, rows, none, []⟩ ++ " ON CONFLICT " ++
        Sql.serialize (Sql.OnConflict.targetTokens target) ++ " DO UPDATE SET " ++
        Sql.serialize (Sql.assignments data) ++ restriction ++
        Sql.serialize (Sql.namesClause .returning params.returning) := by
  obtain ⟨conflict?, hspec, hok⟩ := exists_of_bind_eq_ok hok
  rw [hconflict, Option.mapM_some] at hspec
  obtain ⟨conflict, hclause, rfl⟩ := exists_of_map_eq_ok hspec
  obtain ⟨target, -, hclause⟩ := exists_of_bind_eq_ok hclause
  obtain ⟨action, haction, hclause⟩ := exists_of_bind_eq_ok hclause
  cases hclause
  cases data with
  | nil => cases haction
  | cons member rest =>
    obtain ⟨text?, htext, rfl⟩ := exists_of_map_eq_ok haction
    refine ⟨target, _, restricts_conditionText htext, ?_⟩
    rw [← Except.ok.inj hok]
    exact Sql.insert_doUpdate _ _ _ _ _ _ _

namespace Statement

/-- The condition of an UPDATE or a DELETE, and of the UPDATE of a conflict rule, restricts the
statement if there is anything in it, at whatever depth, that demands something; the statement is
then the same but for the WHERE clause, which is the whole condition. -/
theorem compile_restricted :
    (∀ params sql, (update params).compile = .ok sql →
      ∃ assigned restriction, params.data = .object assigned ∧
        Restricts params.relations params.filter restriction ∧
        sql = Text.trim ("UPDATE " ++ Sql.identifier params.table ++ " SET " ++
          Sql.serialize (Sql.assignments assigned) ++ restriction ++
          Sql.serialize (Sql.namesClause .returning params.returning))) ∧
    (∀ params sql, (delete params).compile = .ok sql →
      ∃ restriction, Restricts params.relations params.filter restriction ∧
        sql = Text.trim ("DELETE FROM " ++ Sql.identifier params.table ++ restriction ++
          Sql.serialize (Sql.namesClause .returning params.returning))) ∧
    (∀ params sql columns? constraint data filter,
      params.onConflict = some ⟨columns?, constraint, .doUpdate data filter⟩ →
      (insertOne params).compile = .ok sql ∨ (insertMany params).compile = .ok sql →
      ∃ columns rows target restriction, Restricts params.relations filter restriction ∧
        sql = Sql.Insert.toSql ⟨params.table, columns, rows, none, []⟩ ++ " ON CONFLICT " ++
          Sql.serialize (Sql.OnConflict.targetTokens target) ++ " DO UPDATE SET " ++
          Sql.serialize (Sql.assignments data) ++ restriction ++
          Sql.serialize (Sql.namesClause .returning params.returning)) := by
  refine ⟨fun params sql hok => ?_, fun params sql hok => ?_, ?_⟩
  · obtain ⟨_, -, hok⟩ := exists_of_bind_eq_ok hok
    obtain ⟨assigned, hassigned, hok⟩ := exists_of_bind_eq_ok hok
    obtain ⟨text?, htext, hok⟩ := exists_of_bind_eq_ok hok
    obtain ⟨hdata, -⟩ := eq_object_of_checkMembers hassigned
    refine ⟨assigned, _, hdata, restricts_conditionText htext, ?_⟩
    rw [← Except.ok.inj hok, ← Sql.update_head params.table assigned text? params.returning]
    exact Sql.toSql_returning _ _ _
  · obtain ⟨_, -, hok⟩ := exists_of_bind_eq_ok hok
    obtain ⟨text?, htext, hok⟩ := exists_of_bind_eq_ok hok
    refine ⟨_, restricts_conditionText htext, ?_⟩
    rw [← Except.ok.inj hok, ← Sql.delete_head params.table text? params.returning]
    exact Sql.toSql_returning _ _ _
  · rintro params sql columns? constraint data filter hconflict (hok | hok)
    · obtain ⟨_, -, hok⟩ := exists_of_bind_eq_ok hok
      obtain ⟨members, -, hok⟩ := exists_of_bind_eq_ok hok
      exact ⟨_, _, exists_of_statement hconflict hok⟩
    · obtain ⟨_, -, hok⟩ := exists_of_bind_eq_ok hok
      split at hok
      · obtain ⟨members, -, hok⟩ := exists_of_bind_eq_ok hok
        obtain ⟨rows, -, hok⟩ := exists_of_bind_eq_ok hok
        exact ⟨_, _, exists_of_statement hconflict hok⟩
      · cases hok

/-- An entry in a group in a group in a negation, beside an empty predicate. -/
def deepFilter (field : String) (condition : Condition) : Predicate :=
  .ofEntries [("NOT", .negation (.ofEntries [("AND", .allOf
    [.empty, .ofEntries [("OR", .anyOf [.ofEntries [(field, condition)]])]])]))]

/-- A condition with a value at the bottom. -/
def oneArtist : Predicate := deepFilter "id" (.equals (.string "1"))

/-- A condition with an operator over no subquery at the bottom. -/
def everyArtist : Predicate := deepFilter "id" (.comparisons [(.isIn, .subqueries [])])

def artistUpdate : UpdateParams :=
  ⟨"artists", .object [("name", .string "Abba")], some oneArtist, ["id"], []⟩

def artistDelete : DeleteParams := ⟨"artists", some everyArtist, [], []⟩

def artistInsert : InsertParams :=
  ⟨"artists", .object [("name", .string "Abba")], [],
    some ⟨some ["name"], none, .doUpdate [("name", .null)] (some oneArtist)⟩, []⟩

/-- The value restricts the UPDATE and the conflict rule; the operator over no subquery leaves the
DELETE without a WHERE clause. -/
theorem compile_restricted_artists :
    (oneArtist.hasAtom = true ∧ everyArtist.hasAtom = false) ∧
    (∃ sql, (update artistUpdate).compile = .ok sql ∧
      ∃ assigned restriction, artistUpdate.data = .object assigned ∧
        Restricts [] (some oneArtist) restriction ∧
        sql = Text.trim ("UPDATE " ++ Sql.identifier "artists" ++ " SET " ++
          Sql.serialize (Sql.assignments assigned) ++ restriction ++
          Sql.serialize (Sql.namesClause .returning ["id"]))) ∧
    (∃ sql, (delete artistDelete).compile = .ok sql ∧
      ∃ restriction, Restricts [] (some everyArtist) restriction ∧
        sql = Text.trim ("DELETE FROM " ++ Sql.identifier "artists" ++ restriction ++
          Sql.serialize (Sql.namesClause .returning []))) ∧
    (∃ sql, (insertOne artistInsert).compile = .ok sql ∧
      ∃ columns rows target restriction, Restricts [] (some oneArtist) restriction ∧
        sql = Sql.Insert.toSql ⟨"artists", columns, rows, none, []⟩ ++ " ON CONFLICT " ++
          Sql.serialize (Sql.OnConflict.targetTokens target) ++ " DO UPDATE SET " ++
          Sql.serialize (Sql.assignments [("name", .null)]) ++ restriction ++
          Sql.serialize (Sql.namesClause .returning [])) := by
  obtain ⟨hupdate, hdelete, hinsert⟩ := compile_restricted
  refine ⟨⟨rfl, rfl⟩, ?_, ?_, ?_⟩
  · have hok : ∃ sql, (update artistUpdate).compile = .ok sql := exists_eq_ok (by decide)
    obtain ⟨sql, hok⟩ := hok
    exact ⟨sql, hok, hupdate _ _ hok⟩
  · have hok : ∃ sql, (delete artistDelete).compile = .ok sql := exists_eq_ok (by decide)
    obtain ⟨sql, hok⟩ := hok
    exact ⟨sql, hok, hdelete _ _ hok⟩
  · have hok : ∃ sql, (insertOne artistInsert).compile = .ok sql := exists_eq_ok (by decide)
    obtain ⟨sql, hok⟩ := hok
    exact ⟨sql, hok, hinsert _ _ _ _ _ _ rfl (Or.inl hok)⟩

end Statement

end DescriptorSql
