import DescriptorSql.Proofs.Compile.Correlation
import DescriptorSql.Proofs.Compile.Termination

/-!
# `Proofs/Compile/Rows.lean` — a subquery and a nested relation read the same rows

A relation is read in two places: by a subquery in a condition, and by the SELECT that nests its
rows into those of a query. Only the columns differ. From where the rows come, how they are joined,
filtered and ordered, and how they are tied to the row around them is one text (`rowsText`), and
this text is behind the columns in both places (`agree_rows_of_relation`).
-/

set_option autoImplicit false

namespace DescriptorSql

/-! ## Trimming behind a word -/

/-- Trimming a text reaches no further than to the end of what is not blank. -/
theorem trim_append {front rest : String} {c : Char} {cs : List Char}
    (hfront : front.toList = c :: cs) (hc : Text.isBlank c = false) {d : Char}
    (hd : Text.isBlank d = false) (hmem : d ∈ rest.toList) :
    Text.trim (front ++ rest) = front ++ Text.trimEnd rest := by
  obtain ⟨before, after, hrest⟩ := List.append_of_mem hmem
  have hwhole : c :: cs ++ (before ++ d :: after) = (c :: cs ++ before) ++ d :: after := by simp
  rw [← String.toList_inj, String.toList_append, Text.toList_trim, Text.toList_trimEnd,
    String.toList_append, hfront, hrest, Text.dropOuterBlanks, List.cons_append,
    List.dropWhile_cons_of_neg (by simp [hc]), ← List.cons_append, hwhole, Text.dropTrailingBlanks,
    Sql.reverse_dropWhile_append_cons hd, Text.dropTrailingBlanks,
    Sql.reverse_dropWhile_append_cons hd,
    List.append_assoc]

/-! ## What follows the columns -/

/-- The clauses of a SELECT, with its source in front of them. -/
def rowsClauses (source : String) (body : QueryBody) (expansion : Expansion) : Sql.Clauses where
  head := source
  joins := expansion.joins
  filter := expansion.filter
  groupBy := body.groupBy
  having := expansion.having
  orderBy := body.orderBy
  limit := body.limit
  offset := body.offset

/-- From the source of a SELECT to its end. -/
def rowsText (source : String) (body : QueryBody) (expansion : Expansion) (append : Sql.Append) :
    String :=
  Text.trimEnd (Sql.serialize ((rowsClauses source body expansion).tokens append))

theorem where_mem_filterTokens (clauses : Sql.Clauses) {condition : String} (hne : condition ≠ "") :
    Sql.Token.keyword .«where» ∈ clauses.filterTokens (.condition condition) := by
  have hpresent : Sql.present (Sql.Append.condition condition).filter = some condition :=
    Sql.Clauses.present_eq hne
  rw [Sql.Clauses.filterTokens, hpresent]
  cases Sql.present clauses.filter with
  | none => simp [Sql.spaced]
  | some own => simp [Sql.spaced]

/-- A SELECT with a condition from outside is its columns and what follows them. The condition keeps
the blanks in front of the clauses from being trimmed. -/
theorem selectStatement_eq (columns source : String) (body : QueryBody) (expansion : Expansion)
    {condition : String} (hne : condition ≠ "") :
    selectStatement columns source body expansion (.condition condition) =
      "SELECT " ++ columns ++ " FROM " ++ rowsText source body expansion
        (.condition condition) := by
  have hsplit : selectStatement columns source body expansion (.condition condition) =
      Text.trim ("SELECT " ++ columns ++ " FROM " ++
        Sql.serialize ((rowsClauses source body expansion).tokens (.condition condition))) := by
    simp only [selectStatement, Sql.Clauses.toSql, Sql.Clauses.tokens, rowsClauses,
      Sql.serialize_append,
      Sql.serialize_cons, Sql.Token.text, String.append_assoc]
    rfl
  have hwhere : 'W' ∈
      (Sql.serialize
        ((rowsClauses source body expansion).tokens (.condition condition))).toList := by
    rw [Sql.toList_serialize, List.mem_flatMap]
    refine ⟨.keyword .«where», ?_, by decide⟩
    simp [Sql.Clauses.tokens, where_mem_filterTokens _ hne]
  have hfront : ("SELECT " ++ columns ++ " FROM ").toList =
      'S' :: ("ELECT " ++ columns ++ " FROM ").toList := by simp
  rw [hsplit, trim_append hfront (by decide) (by decide) hwhere, rowsText]

/-! ## The two places -/

section

variable {catalog : Catalog} {relation : Relation} {query : SubQuery}

/-- The rows of a relation, as they are read for a subquery. -/
def relationRows (relation : Relation) (query : SubQuery) (expansion : Expansion) : String :=
  rowsText (Sql.relationSource relation) query.body expansion
    (.condition (Sql.correlation relation))

theorem SubQuery.sqlFrom_eq_rows (relation : Relation) (kind : SubQueryKind) :
    (query.selecting kind).sqlFrom catalog (Sql.relationSource relation)
        (.condition (Sql.correlation relation)) =
      (fun expansion => "SELECT " ++ (query.selecting kind).outputColumns.selectList ++ " FROM " ++
        relationRows relation query expansion) <$> expandBody catalog query.body := by
  -- the columns that the place gives are not in the clauses
  have hclauses : ∀ expansion,
      rowsClauses (Sql.relationSource relation) (query.selecting kind).body expansion =
        rowsClauses (Sql.relationSource relation) query.body expansion := by
    intro expansion
    cases query
    rfl
  rw [SelectQuery.sqlFrom, SubQuery.expand_selecting, bind_pure_comp]
  refine congrArg (· <$> expandBody catalog query.body) (funext fun expansion => ?_)
  rw [selectStatement_eq _ _ _ _ (correlation_ne_empty relation), rowsText, hclauses,
    relationRows, rowsText]

theorem SubQuery.toSql_eq_rows {name : String} (hrelation : catalog.resolve name = .ok relation)
    (htable : query.table = none) (kind : SubQueryKind) :
    query.toSql catalog kind name = (fun expansion => kind.keyword ++ "(" ++
        ("SELECT " ++ (query.selecting kind).outputColumns.selectList ++ " FROM " ++
          relationRows relation query expansion) ++
        if relation.junction.isSome then " )" else ")") <$> expandBody catalog query.body := by
  rw [SubQuery.toSql_of_relation catalog htable, hrelation]
  refine Eq.trans (b := _ <$> (query.selecting kind).sqlFrom catalog (Sql.relationSource relation)
    (.condition (Sql.correlation relation))) rfl ?_
  rw [SubQuery.sqlFrom_eq_rows, Functor.map_map]

theorem SubQuery.toNestedSql_eq_rows (relation : Relation) (key : String) :
    query.toSelectQuery.toNestedSql catalog key relation = (fun expansion =>
        nestedHead key relation ++ " FROM " ++ ("(" ++
          ("SELECT " ++ query.toSelectQuery.outputColumns.objectList key ++ " FROM " ++
            relationRows relation query expansion) ++ ")") ++ " ") <$>
              expandBody catalog query.body := by
  have hexpand : query.toSelectQuery.expand catalog = expandBody catalog query.body :=
    SelectQuery.expand_of_body catalog query.body
  rw [SelectQuery.toNestedSql, hexpand]
  refine congrArg (· <$> expandBody catalog query.body) (funext fun expansion => ?_)
  have hselect := selectStatement_eq (query.toSelectQuery.outputColumns.objectList key)
    (Sql.relationSource relation) query.body expansion (correlation_ne_empty relation)
  rw [nestedStatement_eq, relationRows, ← hselect]
  rfl

/-- What follows the columns in the parentheses of the subquery follows the key in the body of the
nested relation. Where there is a junction, the parentheses end with a blank. -/
def SameRows (relation : Relation) (query : SubQuery) (kind : SubQueryKind)
    (key sub nested : String) : Prop :=
  ∃ rows,
    sub = kind.keyword ++ "(" ++
      ("SELECT " ++ (query.selecting kind).outputColumns.selectList ++ " FROM " ++ rows) ++
      (if relation.junction.isSome then " )" else ")") ∧
    nested = nestedHead key relation ++ " FROM " ++ ("(" ++
      ("SELECT " ++ ("jsonb_build_object" ++ "(" ++
        ", ".intercalate (query.toSelectQuery.outputColumns.map pairText) ++ ")" ++ " AS " ++
        Sql.identifier key) ++ " FROM " ++ rows) ++ ")") ++ " "

theorem SubQuery.agree_sameRows {name : String} (hrelation : catalog.resolve name = .ok relation)
    (htable : query.table = none) (kind : SubQueryKind) (key : String) :
    Agree (SameRows relation query kind key) (query.toSql catalog kind name)
      (query.toSelectQuery.toNestedSql catalog key relation) := by
  rw [SubQuery.toSql_eq_rows hrelation htable, SubQuery.toNestedSql_eq_rows, objectList_eq]
  cases expandBody catalog query.body with
  | error error => exact rfl
  | ok expansion => exact ⟨relationRows relation query expansion, rfl, rfl⟩

/-- For a relation of the catalog and a subquery over its rows: an existence test or the right-hand
side of an operator, and the SELECT that nests the rows under any key, fail with the same error, or
both are there and read the same rows. -/
theorem agree_rows_of_relation {name : String} (hrelation : catalog.resolve name = .ok relation)
    (htable : query.table = none) (key : String) :
    (∀ body : ExistsBody, body.toSubQuery = query →
      Agree (fun tests nested => ∃ sub, tests = [sub] ∧
        SameRows relation query .existence key sub nested)
        (existenceTexts catalog [(name, body)])
        (query.toSelectQuery.toNestedSql catalog key relation)) ∧
      ∀ keyword, Agree (fun texts nested => ∃ sub, texts = [sub] ∧
          SameRows relation query (.rows keyword) key sub nested)
        (rowsTexts catalog keyword [(name, query)])
        (query.toSelectQuery.toNestedSql catalog key relation) := by
  have hone : ∀ {α : Type} (f : α → Except QueryError String) (item : α),
      [item].mapM f = (fun text => [text]) <$> f item := by
    intro α f item
    rw [List.mapM_cons]
    cases f item <;> rfl
  have hsingle : ∀ kind, Agree (fun texts nested => ∃ sub, texts = [sub] ∧
        SameRows relation query kind key sub nested)
      ((fun text => [text]) <$> query.toSql catalog kind name)
      (id <$> query.toSelectQuery.toNestedSql catalog key relation) :=
    fun kind => (SubQuery.agree_sameRows hrelation htable kind key).map fun sub nested h =>
      ⟨sub, rfl, h⟩
  simp only [id_map] at hsingle
  refine ⟨fun body hbody => ?_, fun keyword => ?_⟩
  · rw [existenceTexts_eq, hone, hbody]
    exact hsingle .existence
  · rw [rowsTexts_eq, hone]
    exact hsingle (.rows keyword)

/-- The labels of an album, through a junction and under an alias. -/
def labelRelation : Relation :=
  ⟨.many, "labels", "id", "albums", "id", some "label",
    some ⟨"album_labels", "label_id", "album_id"⟩⟩

/-- The five newest labels that are still open. -/
def openLabels : SubQuery :=
  ⟨none, { QueryBody.empty with
    select := [("id", .reuse)]
    filter := some (.ofEntries [("open", .equals (.bool true))])
    orderBy := [("founded", .desc)]
    limit := some (.count 5) }⟩

theorem agree_rows_openLabels :
    (Catalog.resolve [("labels", labelRelation)] "labels" = .ok labelRelation ∧
      openLabels.table = none) ∧
      (∀ body : ExistsBody, body.toSubQuery = openLabels →
        Agree (fun tests nested => ∃ sub, tests = [sub] ∧
            SameRows labelRelation openLabels .existence "labels" sub nested)
          (existenceTexts [("labels", labelRelation)] [("labels", body)])
          (openLabels.toSelectQuery.toNestedSql [("labels", labelRelation)] "labels"
            labelRelation)) ∧
      ∀ keyword, Agree (fun texts nested => ∃ sub, texts = [sub] ∧
          SameRows labelRelation openLabels (.rows keyword) "labels" sub nested)
        (rowsTexts [("labels", labelRelation)] keyword [("labels", openLabels)])
        (openLabels.toSelectQuery.toNestedSql [("labels", labelRelation)] "labels"
          labelRelation) := by
  have hrelation : Catalog.resolve [("labels", labelRelation)] "labels" = .ok labelRelation := rfl
  exact ⟨⟨hrelation, rfl⟩, agree_rows_of_relation hrelation rfl "labels"⟩

end

end DescriptorSql
