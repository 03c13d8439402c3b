import DescriptorSql.Proofs.Lexical.Provenance
import DescriptorSql.Proofs.Reading.Insert
import DescriptorSql.Proofs.Statement.Bound
import DescriptorSql.Proofs.Statement.Data

/-!
# `Proofs/Statement/Tuples.lean` — an INSERT has one tuple for every row

An INSERT of several rows takes its columns from the first of them. Read back, it has these columns
and one tuple for every row, with one value for every column: the value of the row, or NULL where
the row lacks the column (`tuples_insertMany`). What a row has beyond the columns is not in the
statement, and an INSERT of one row is that of the row alone.
-/

set_option autoImplicit false

namespace DescriptorSql

open Sql (Alike Chunk EndsTuples IsElement InsertReading isPlainName items? readInsert? serialize
  startsApart)

/-! ## The text of an INSERT -/

/-- What follows the rows of an INSERT. -/
def behindRows (conflict? : Option Sql.OnConflict) (returning : List String) : String :=
  Sql.phrase " " " " (conflictTexts conflict?) ++ serialize (Sql.namesClause .returning returning)

/-- The text of an INSERT, split at its columns, its rows and what follows them. -/
theorem insert_toSql_eq (table : String) {columns : List String} (hcolumns : columns ≠ [])
    {rows : List (List Json)} (hrows : rows ≠ []) (conflict? : Option Sql.OnConflict)
    (returning : List String) :
    Sql.Insert.toSql ⟨table, columns, rows, conflict?, returning⟩ =
      "INSERT INTO " ++ Sql.identifier table ++ " " ++
        ("(" ++ ", ".intercalate (columns.map Sql.identifier) ++ ")") ++ " VALUES " ++
        (", ".intercalate ((rows.map fun row => row.map Sql.literal).map fun row =>
          "(" ++ ", ".intercalate row ++ ")") ++ behindRows conflict? returning) := by
  have hhead :
      Sql.Insert.toSql ⟨table, columns, [], none, []⟩ = "INSERT INTO " ++ Sql.identifier table ++
      " " ++ ("(" ++ ", ".intercalate (columns.map Sql.identifier) ++ ")") := by
    rw [← Sql.serialize_nameList, ← String.toList_inj]
    simp [Sql.Insert.toSql, Sql.Insert.tokens, hcolumns, Sql.parenthesized, Sql.namesClause,
      Sql.Token.text,
      Sql.Keyword.text]
  have htuples : rows.map Sql.literalList =
      (rows.map fun row => row.map Sql.literal).map fun row =>
        "(" ++ ", ".intercalate row ++ ")" := by
    rw [List.map_map]
    refine List.map_congr_left fun row _ => ?_
    rw [Sql.literalList, Sql.literals_eq_map]
    rfl
  have hsome : (rows.map Sql.literalList).isEmpty = false := by simpa using hrows
  rw [insert_toSql, hhead, Sql.phrase, if_neg (by simp [hsome]), htuples, behindRows]
  simp only [String.append_assoc]

/-! ## What follows the rows -/

theorem endsTuples_word (c : Char) (word : List Char) (rest : List Sql.Item) :
    EndsTuples (.blank c :: .word word :: rest) := by
  rw [EndsTuples, Sql.tuples?, Sql.tuples?]

/-- A clause begins with a word, and no tuple does. -/
theorem endsTuples_of_beginsClause {items : List Sql.Item} (h : Sql.beginsClause items = true) :
    EndsTuples items := by
  unfold Sql.beginsClause at h
  split at h
  · rfl
  · next c item rest =>
    have hkeyword := (Bool.and_eq_true_iff.mp h).2
    cases item with
    | word word => exact endsTuples_word c word rest
    | _ => simp [Sql.Item.isOneOf, Sql.Item.isKeyword] at hkeyword
  · cases h

/-- The ON CONFLICT clause begins with a word. -/
theorem exists_items_conflict {conflict : Sql.OnConflict}
    (h : Alike .closed (serialize conflict.tokens) (serialize conflict.tokens)) :
    ∃ word rest, items? (serialize conflict.tokens) = some (.word word :: rest) := by
  obtain ⟨items, hitems, -⟩ := h.items
  obtain ⟨target, action⟩ := conflict
  have htext : (serialize (Sql.OnConflict.tokens ⟨target, action⟩)).toList = ['O', 'N'] ++
      (" CONFLICT " ++ serialize (Sql.OnConflict.targetTokens target) ++ " DO " ++
        serialize (Sql.OnConflict.actionTokens action)).toList := by
    rw [serialize_conflict]
    simp
  have hword : Sql.Item.ofChars? ['O', 'N'] = some [.word ['O', 'N']] := rfl
  have hread := hitems
  rw [items?, htext] at hread
  obtain ⟨rest, -, rfl⟩ :=
    Sql.exists_of_ofChars?_append hword (Or.inl (by simp [startsApart]; decide)) hread
  exact ⟨['O', 'N'], rest, hitems⟩

/-- What follows the rows is a conflict or a RETURNING or nothing, so the tuples end there. -/
theorem endsTuples_behindRows {conflict? : Option Sql.OnConflict}
    (hconflict : ∀ conflict ∈ conflict?,
      Alike .closed (serialize conflict.tokens) (serialize conflict.tokens))
    {returning : List String} (hreturning : ∀ column ∈ returning, isPlainName column = true) :
    startsApart (behindRows conflict? returning).toList = true ∧
      ∃ items, items? (behindRows conflict? returning) = some items ∧ EndsTuples items := by
  have hopening :=
    Sql.opening_namesClause (show Sql.Keyword.returning ∈ Sql.Opening.keywords by decide)
    hreturning
  obtain ⟨back, hback, hbegins⟩ := hopening.opens
  have hapart := hopening.chunk.right
  cases conflict? with
  | none =>
    have hnone : behindRows none returning = serialize (Sql.namesClause .returning returning) := by
      rw [behindRows]
      exact String.empty_append
    rw [hnone]
    exact ⟨hapart, back, hback, endsTuples_of_beginsClause hbegins⟩
  | some conflict =>
    obtain ⟨word, rest, hitems⟩ := exists_items_conflict (hconflict conflict rfl)
    have hsome : behindRows (some conflict) returning =
        " " ++ (serialize conflict.tokens ++ serialize (Sql.namesClause .returning returning)) := by
      rw [behindRows, conflictTexts, Option.toList_some, List.map_singleton, Sql.phrase,
        if_neg (by simp),
        String.intercalate_singleton, String.append_assoc]
    have hspace : Sql.Item.ofChars? [' '] = some [.blank ' '] := rfl
    have hread := Sql.ofChars?_append hspace (Sql.ofChars?_append hitems hback (Or.inl hapart))
      (Or.inr (by decide))
    rw [hsome]
    refine ⟨by rw [String.toList_append]; exact Sql.startsApart_append _ (by decide) (by decide),
      .blank ' ' :: .word word :: (rest ++ back), ?_, endsTuples_word _ _ _⟩
    rw [items?, String.toList_append, String.toList_append]
    exact hread

/-! ## Rows -/

/-- Rows that have values for some columns are objects, and a column that one of them lacks is
null. -/
theorem exists_objects {columns : List String} {rows : List Json} {cells : List (List Json)}
    (hok : rows.mapM (InsertParams.rowValues columns) = .ok cells) :
    ∃ objects : List (Entries String Json), rows = objects.map .object ∧
      cells = objects.map fun row => columns.map fun column =>
        (Entries.get? row column).getD .null := by
  induction rows generalizing cells with
  | nil =>
    cases hok
    exact ⟨[], rfl, rfl⟩
  | cons row rest ih =>
    rw [List.mapM_cons] at hok
    obtain ⟨own, hown, hok⟩ := exists_of_bind_eq_ok hok
    obtain ⟨others, hothers, hok⟩ := exists_of_bind_eq_ok hok
    cases hok
    obtain ⟨objects, rfl, rfl⟩ := ih hothers
    cases row with
    | object members =>
      cases hown
      exact ⟨members :: objects, rfl, rfl⟩
    | _ => cases hown

/-- The value of a row in a column, as it is written. -/
def writtenCell (row : Entries String Json) (column : String) : String :=
  ((Entries.get? row column).map Sql.literal).getD "NULL"

/-- The value that a row lacks is written NULL. -/
theorem literal_getD_null (row : Entries String Json) (column : String) :
    Sql.literal ((Entries.get? row column).getD .null) = writtenCell row column := by
  rw [writtenCell]
  cases Entries.get? row column <;> rfl

theorem isElement_writtenCell {row : Entries String Json}
    (h : AllPlain (Json.object row).rowWritten) (column : String) :
    IsElement (writtenCell row column) := by
  rw [← literal_getD_null]
  cases hvalue : Entries.get? row column with
  | none => exact Sql.isElement_literal rfl
  | some value =>
    have hwritten := allPlain_flatMap.mp h _ (Entries.mem_of_get? hvalue)
    exact Sql.isElement_literal (hwritten (.value value) (by simp))

/-- The table in front of the columns has no parentheses. -/
theorem exists_items_insertHead {table : String} (h : isPlainName table = true) :
    ∃ items, items? ("INSERT INTO " ++ Sql.identifier table) = some items ∧
      ∀ item ∈ items, item.isGroup = false := by
  obtain ⟨items, hitems, hnominal⟩ := Sql.nominal_identifier h
  have hwords : ∃ front, items? "INSERT INTO " = some front ∧
      ∀ item ∈ front, item.isGroup = false :=
    ⟨[.word "INSERT".toList, .blank ' ', .word "INTO".toList, .blank ' '], rfl, by decide⟩
  obtain ⟨front, hfront, hgroups⟩ := hwords
  refine ⟨front ++ items, ?_, List.forall_mem_append.mpr ⟨hgroups, fun item hitem => ?_⟩⟩
  · rw [items?, String.toList_append]
    exact Sql.ofChars?_append hfront hitems (Or.inr (by decide))
  · cases item with
    | group items => exact absurd (hnominal _ hitem) (by simp [Sql.Item.isNominal])
    | _ => rfl

/-- The conflict of a plain INSERT is closed, so it can be read behind the rows. -/
theorem alike_conflict {catalog : Catalog} (hcatalog : AllPlain catalog.written)
    {spec? : Option ConflictSpec} (hspec : ∀ spec, spec? = some spec → AllPlain spec.written)
    {conflict? : Option Sql.OnConflict}
    (hok : spec?.mapM (ConflictSpec.clause catalog) = .ok conflict?) :
    ∀ conflict ∈ conflict?, Alike .closed (serialize conflict.tokens)
      (serialize conflict.tokens) := by
  cases spec? with
  | none =>
    cases hok
    simp
  | some spec =>
    rw [Option.mapM_some] at hok
    obtain ⟨conflict, hconflict, rfl⟩ := exists_of_map_eq_ok hok
    obtain ⟨_, -, halike⟩ := (agree_clause hcatalog (hspec spec rfl)).exists_ok hconflict
    intro conflict' hmem
    cases hmem
    exact Alike.right halike

/-- Written and read back, an INSERT gives its columns and the values of its rows in them. -/
theorem readInsert?_toSql {table : String} (htable : isPlainName table = true)
    {columns : List String} (hne : columns ≠ [])
    (hcolumns : ∀ column ∈ columns, isPlainName column = true)
    {objects : List (Entries String Json)} (hobjects : objects ≠ [])
    (hrows : ∀ row ∈ objects, AllPlain (Json.object row).rowWritten)
    {conflict? : Option Sql.OnConflict}
    (hconflict : ∀ conflict ∈ conflict?,
      Alike .closed (serialize conflict.tokens) (serialize conflict.tokens))
    {returning : List String} (hreturning : ∀ column ∈ returning, isPlainName column = true) :
    readInsert? (Sql.Insert.toSql ⟨table, columns,
        objects.map fun row => columns.map fun column => (Entries.get? row column).getD .null,
        conflict?, returning⟩) =
      some ⟨columns.map Sql.identifier, objects.map fun row => columns.map (writtenCell row)⟩ := by
  have hcells : (objects.map fun row => columns.map fun column =>
      (Entries.get? row column).getD .null).map (fun row => row.map Sql.literal) =
      objects.map fun row => columns.map (writtenCell row) := by
    rw [List.map_map]
    refine List.map_congr_left fun row _ => ?_
    rw [Function.comp_apply, List.map_map]
    exact List.map_congr_left fun column _ => literal_getD_null row column
  obtain ⟨hapart, hbehind⟩ := endsTuples_behindRows hconflict hreturning
  rw [insert_toSql_eq table hne (by simpa using hobjects), hcells]
  refine Sql.readInsert?_eq (exists_items_insertHead htable) ⟨by simpa using hne, ?_⟩
    ⟨by simpa using hobjects, ?_⟩ hapart hbehind
  · intro text htext
    obtain ⟨column, hcolumn, rfl⟩ := List.mem_map.mp htext
    exact Sql.isElement_identifier (hcolumns column hcolumn)
  · intro texts htexts
    obtain ⟨row, hrow, rfl⟩ := List.mem_map.mp htexts
    refine ⟨by simpa using hne, fun text htext => ?_⟩
    obtain ⟨column, -, rfl⟩ := List.mem_map.mp htext
    exact isElement_writtenCell (hrows row hrow) column

/-! ## Inserts of several rows -/

/-- It is the first row that has the columns, and every other one is filled up to them. -/
theorem exists_tuples_of_insertMany {params : InsertParams}
    (hplain : AllPlain (Statement.insertMany params).written) {sql : String}
    (hok : params.insertMany = .ok sql) :
    ∃ first rest, params.data = .array ((first :: rest).map .object) ∧ first ≠ [] ∧
      readInsert? sql = some ⟨(Entries.keys first).map Sql.identifier,
        (first :: rest).map fun row => (Entries.keys first).map (writtenCell row)⟩ := by
  obtain ⟨hframe, hdata⟩ := allPlain_append.mp hplain
  obtain ⟨htable, hreturning, hspec, hcatalog⟩ := plain_frame hframe
  obtain ⟨⟨⟩, -, hok⟩ := exists_of_bind_eq_ok hok
  obtain ⟨table, data, returning, spec?, catalog⟩ := params
  match data with
  | .null | .bool _ | .number _ | .string _ | .object _ | .array [] => cases hok
  | .array (first :: rest) =>
    obtain ⟨members, hmembers, hok⟩ := exists_of_bind_eq_ok hok
    obtain ⟨cells, hcells, hok⟩ := exists_of_bind_eq_ok hok
    obtain ⟨conflict?, hconflict, hok⟩ := exists_of_bind_eq_ok hok
    cases hok
    obtain ⟨rfl, hne⟩ := eq_object_of_checkMembers hmembers
    obtain ⟨objects, hobjects, rfl⟩ := exists_objects hcells
    cases objects with
    | nil => cases hobjects
    | cons members' others =>
      obtain ⟨hfirst, rfl⟩ := List.cons.inj hobjects
      cases hfirst
      have hrows : ∀ row ∈ members :: others, AllPlain (Json.object row).rowWritten := by
        intro row hrow
        refine allPlain_flatMap.mp hdata (.object row) ?_
        exact List.mem_map_of_mem hrow
      have hkeys : Entries.keys members ≠ [] := by simpa [Entries.keys] using hne
      exact ⟨members, others, rfl, hne, readInsert?_toSql htable hkeys
        (plain_columns (hrows members List.mem_cons_self)) (List.cons_ne_nil _ _) hrows
        (alike_conflict hcatalog hspec hconflict) hreturning⟩

/-- The row with nothing but some columns. -/
def Json.restrict (columns : List String) : Json → Json
  | .object members => .object (members.filter fun entry => decide (entry.1 ∈ columns))
  | other => other

theorem rowValues_restrict (columns : List String) (row : Json) :
    InsertParams.rowValues columns (row.restrict columns) = InsertParams.rowValues columns row := by
  cases row with
  | object members =>
    rw [Json.restrict, InsertParams.rowValues, InsertParams.rowValues]
    refine congrArg Except.ok (List.map_congr_left fun column hcolumn => ?_)
    rw [Entries.get?_filter (fun key => decide (key ∈ columns)) members (by simpa using hcolumn)]
  | _ => rfl

theorem insertMany_of_ne_nil (params : InsertParams) {members : Entries String Json}
    (hne : members ≠ []) (rest : List Json) :
    InsertParams.insertMany { params with data := .array (.object members :: rest) } =
      checkTable params.table >>= fun _ =>
        (Json.object members :: rest).mapM
          (InsertParams.rowValues (Entries.keys members)) >>= fun rows =>
          params.statement (Entries.keys members) rows := by
  cases members with
  | nil => exact absurd rfl hne
  | cons member others => rfl

/-- What a row has beyond the columns of the first one is not looked at. -/
theorem insertMany_restrict (params : InsertParams) (first : Entries String Json)
    (rest : List Json) :
    InsertParams.insertMany { params with
        data := .array (.object first :: rest.map (Json.restrict (Entries.keys first))) } =
      InsertParams.insertMany { params with data := .array (.object first :: rest) } := by
  have hrows : (rest.map (Json.restrict (Entries.keys first))).mapM
      (InsertParams.rowValues (Entries.keys first)) =
      rest.mapM (InsertParams.rowValues (Entries.keys first)) := by
    rw [List.mapM_map]
    exact congrArg (List.mapM · rest) (funext fun row => rowValues_restrict _ row)
  by_cases hne : first = []
  · subst hne
    rfl
  · rw [insertMany_of_ne_nil params hne, insertMany_of_ne_nil params hne, List.mapM_cons,
      List.mapM_cons,
      hrows]

/-- The values of a row are those of its columns, if no column stands twice. -/
theorem values_eq_map {members : Entries String Json} (hnodup : (Entries.keys members).Nodup) :
    (Entries.keys members).map (fun column => (Entries.get? members column).getD .null) =
      Entries.values members := by
  rw [Entries.keys, Entries.values, List.map_map]
  refine List.map_congr_left fun member hmember => ?_
  rw [Function.comp_apply, (Entries.get?_eq_some_iff hnodup).mpr hmember, Option.getD_some]

/-- One row in an array is inserted as the row is. -/
theorem insertMany_singleton (params : InsertParams) {members : Entries String Json}
    (hne : members ≠ []) (hnodup : (Entries.keys members).Nodup) :
    InsertParams.insertMany { params with data := .array [.object members] } =
      InsertParams.insertOne { params with data := .object members } := by
  have hone : InsertParams.insertOne { params with data := .object members } =
      checkTable params.table >>= fun _ =>
        params.statement (Entries.keys members) [Entries.values members] := by
    cases members with
    | nil => exact absurd rfl hne
    | cons member others => rfl
  have hrow : [Json.object members].mapM (InsertParams.rowValues (Entries.keys members)) =
      .ok [Entries.values members] := by
    rw [← values_eq_map hnodup]
    rfl
  rw [insertMany_of_ne_nil params hne, hone, hrow]
  rfl

/-- An INSERT of several rows that compiles is read back as the columns of its first row and one
tuple for every row, each with what the row has in every column. The other rows may as well have no
more columns than the first, and an array of one row is inserted as the row alone. -/
theorem tuples_insertMany (params : InsertParams) :
    (∀ sql, AllPlain (Statement.insertMany params).written → params.insertMany = .ok sql →
      ∃ first rest, params.data = .array ((first :: rest).map .object) ∧ first ≠ [] ∧
        readInsert? sql = some ⟨(Entries.keys first).map Sql.identifier,
          (first :: rest).map fun row => (Entries.keys first).map fun column =>
            ((Entries.get? row column).map Sql.literal).getD "NULL"⟩) ∧
      (∀ first rest, InsertParams.insertMany { params with
          data := .array (.object first :: rest.map (Json.restrict (Entries.keys first))) } =
        InsertParams.insertMany { params with data := .array (.object first :: rest) }) ∧
      ∀ members, members ≠ [] → (Entries.keys members).Nodup →
        InsertParams.insertMany { params with data := .array [.object members] } =
          InsertParams.insertOne { params with data := .object members } :=
  ⟨fun _ hplain hok => exists_tuples_of_insertMany hplain hok, insertMany_restrict params,
    fun _ hne hnodup => insertMany_singleton params hne hnodup⟩

/-- Two rows; the second lacks the name and has a column more. -/
def twoRows : InsertParams :=
  ⟨"users", .array [.object [("name", .string "O'Hara, (\"Kit\")"), ("age", .number (.int 36))],
    .object [("age", .number (.int 41)), ("nick", .string "jo")]],
    ["id"], some ⟨some ["name"], none, .doNothing⟩, []⟩

def twoRowsSql : String :=
  "INSERT INTO \"users\" (\"name\", \"age\") VALUES ('O''Hara, (\"Kit\")', 36), (NULL, 41) " ++
    "ON CONFLICT (\"name\") DO NOTHING RETURNING \"id\""

theorem tuples_twoRows :
    (AllPlain (Statement.insertMany twoRows).written ∧ twoRows.insertMany = .ok twoRowsSql ∧
      ∃ first rest, twoRows.data = .array ((first :: rest).map .object) ∧ first ≠ [] ∧
        readInsert? twoRowsSql = some ⟨(Entries.keys first).map Sql.identifier,
          (first :: rest).map fun row => (Entries.keys first).map fun column =>
            ((Entries.get? row column).map Sql.literal).getD "NULL"⟩) ∧
      (∀ first rest, InsertParams.insertMany { twoRows with
          data := .array (.object first :: rest.map (Json.restrict (Entries.keys first))) } =
        InsertParams.insertMany { twoRows with data := .array (.object first :: rest) }) ∧
      ([("age", Json.null)] ≠ [] ∧ (Entries.keys [("age", Json.null)]).Nodup ∧
        InsertParams.insertMany { twoRows with data := .array [.object [("age", Json.null)]] } =
          InsertParams.insertOne { twoRows with data := .object [("age", Json.null)] }) := by
  obtain ⟨hread, hrestrict, hone⟩ := tuples_insertMany twoRows
  have hplain : AllPlain (Statement.insertMany twoRows).written := by decide
  have hok : twoRows.insertMany = .ok twoRowsSql := eq_ok_of_toOption (by decide +kernel)
  have hne : [("age", Json.null)] ≠ [] := List.cons_ne_nil _ _
  have hnodup : (Entries.keys [("age", Json.null)]).Nodup := by decide
  exact ⟨⟨hplain, hok, hread twoRowsSql hplain hok⟩, hrestrict, hne, hnodup, hone _ hne hnodup⟩

end DescriptorSql
