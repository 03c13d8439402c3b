import DescriptorSql.Proofs.Statement.Numbered

/-!
# `Proofs/Statement/Bound.lean` — binding what was compiled with named values

A statement can be compiled with names for its values and bound, or compiled with numbers for its
values. Both give the same text (`Statement.bind_compile`): the compiler writes every named value as
a literal of its own, and the binder finds these literals, all of them and nothing else.
-/

set_option autoImplicit false

namespace DescriptorSql

open Binding (Lifts LiftsAll LiftsOption SlotNumbers Template valueOf)
open Sql (NoAt OpensApart serialize)

namespace Text

/-- A text is blank if its parts are. -/
theorem isBlankText_append (a b : String) :
    isBlankText (a ++ b) = (isBlankText a && isBlankText b) := by
  simp [isBlankText]

/-- What is dropped fulfils the predicate, so it does not matter to whether all do. -/
theorem all_dropWhile (p : Char → Bool) (cs : List Char) : (cs.dropWhile p).all p = cs.all p := by
  induction cs with
  | nil => rfl
  | cons c cs ih =>
    by_cases hc : p c = true
    · rw [List.dropWhile_cons_of_pos hc, ih, List.all_cons, hc, Bool.true_and]
    · rw [List.dropWhile_cons_of_neg hc]

/-- Trimming leaves a blank text blank, and a text that is not blank as one that is not. -/
theorem isBlankText_trim (text : String) : isBlankText (trim text) = isBlankText text := by
  rw [isBlankText, toList_trim, dropOuterBlanks, dropTrailingBlanks, List.all_reverse,
    all_dropWhile,
    List.all_reverse, all_dropWhile, isBlankText]

end Text

variable {values : Entries String Json} {catalog : Catalog}

/-! ## Updates and deletes -/

namespace Sql

/-- What stands before the condition of an UPDATE: its table and its assignments. -/
theorem update_head (table : String) (assigned : Entries String Json) (filter : Option String)
    (returning : List String) :
    (Update.clauses ⟨table, assigned, filter, returning⟩).head =
      "UPDATE " ++ identifier table ++ " SET " ++ serialize (assignments assigned) := by
  rw [← String.toList_inj]
  simp [Update.clauses, Token.text, Keyword.text]

theorem delete_head (table : String) (filter : Option String) (returning : List String) :
    (Delete.clauses ⟨table, filter, returning⟩).head = "DELETE FROM " ++ identifier table := by
  rw [← String.toList_inj]
  simp [Delete.clauses, Token.text, Keyword.text]

end Sql

/-- The assignments come before the condition in the text, and are numbered before it. -/
theorem lifts_update {table : String} (htable : NoAt table) {assigned : Entries String Json}
    (hassigned : AllNamed values
      (assigned.flatMap fun (column, value) => [.name column, .value value]))
    {filter : Option String} {F : SlotNumbers → Option String → Prop}
    (hfilter : LiftsOption values filter F) {returning : List String}
    (hreturning : ∀ column ∈ returning, NoAt column) :
    Lifts values (Sql.Update.toSql ⟨table, assigned, filter, returning⟩) fun numbers text =>
      ∃ assigned' filter', List.Forall₂ (Keyed (Json.Numbered numbers)) assigned assigned' ∧
        F numbers filter' ∧ text = Sql.Update.toSql ⟨table, assigned', filter', returning⟩ := by
  have hupdate : NoAt ("UPDATE " ++ Sql.identifier table) := by
    rw [Sql.noAt_append]
    exact ⟨by decide, Sql.noAt_identifier htable⟩
  have hlead := hupdate.opensApart (show OpensApart " SET " by decide) (by simp)
  have hhead := (lifts_assignments hassigned).behind hlead
  rw [← Sql.update_head table assigned filter returning] at hhead
  have hnamed : (Sql.Update.clauses ⟨table, assigned, filter, returning⟩).IsNamed values :=
    .ofReturning rfl rfl rfl rfl hreturning
  refine (hnamed.lifts_toSql hhead (Lifts.ofNoAt (show NoAt "" by decide)) rfl hfilter
    (.none fun _ => rfl) rfl (by simp)).mono ?_
  rintro numbers _
    ⟨_, _, filter', _, _, _, rfl, ⟨_, rfl, assigned', hmembers, rfl⟩, rfl, hfilter', rfl,
    hlimit, hoffset⟩
  cases hlimit
  cases hoffset
  refine ⟨assigned', filter', hmembers, hfilter', ?_⟩
  rw [← Sql.update_head table assigned' filter' returning]
  rfl

/-- A DELETE has values in its condition only. -/
theorem lifts_delete {table : String} (htable : NoAt table) {filter : Option String}
    {F : SlotNumbers → Option String → Prop} (hfilter : LiftsOption values filter F)
    {returning : List String} (hreturning : ∀ column ∈ returning, NoAt column) :
    Lifts values (Sql.Delete.toSql ⟨table, filter, returning⟩) fun numbers text =>
      ∃ filter', F numbers filter' ∧ text = Sql.Delete.toSql ⟨table, filter', returning⟩ := by
  have hhead : NoAt (Sql.Delete.clauses ⟨table, filter, returning⟩).head := by
    rw [Sql.delete_head, Sql.noAt_append]
    exact ⟨by decide, Sql.noAt_identifier htable⟩
  have hnamed : (Sql.Delete.clauses ⟨table, filter, returning⟩).IsNamed values :=
    .ofReturning rfl rfl rfl rfl hreturning
  refine (hnamed.lifts_toSql (Lifts.ofNoAt hhead)
    (Lifts.ofNoAt (show NoAt "" by decide)) rfl hfilter
    (.none fun _ => rfl) rfl (by simp)).mono ?_
  rintro numbers _ ⟨_, _, filter', _, _, _, rfl, rfl, rfl, hfilter', rfl, hlimit, hoffset⟩
  cases hlimit
  cases hoffset
  exact ⟨filter', hfilter', rfl⟩

/-! ## The five operations -/

/-- Members to write are an object that is not empty. -/
theorem eq_object_of_checkMembers {violation : Violation} {data : Json}
    {members : Entries String Json} (h : checkMembers violation data = .ok members) :
    data = .object members ∧ members ≠ [] := by
  unfold checkMembers at h
  cases data with
  | object found =>
    cases found with
    | nil => cases h
    | cons member rest =>
      cases h
      exact ⟨rfl, List.cons_ne_nil _ _⟩
  | _ => cases h

/-- Numbers leave a row a row. -/
theorem checkMembers_related {R : Json → Json → Prop} (violation : Violation)
    {members members' : Entries String Json} (hne : members ≠ [])
    (h : List.Forall₂ (Keyed R) members members') :
    checkMembers violation (.object members') = .ok members' := by
  cases h with
  | nil => exact absurd rfl hne
  | cons hfirst hrest => rfl

namespace Statement

/-- The columns that an INSERT of several rows takes from its first row. -/
def columns : Statement → List String
  | insertMany ⟨_, .array (.object members :: _), _, _, _⟩ => Entries.keys members
  | _ => []

/-- The text is compiled from the statement with numbers for its names. -/
def CompilesNumbered (statement : Statement) (numbers : SlotNumbers) (text : String) : Prop :=
  ∃ statement', Related (Json.Numbered numbers) statement statement' ∧ statement'.compile = .ok text

/-- A query over its table is numbered as queries are. -/
theorem lifts_find {params : FindParams} (h : AllNamed values (find params).written) {text : String}
    (hok : (find params).compile = .ok text) :
    Lifts values text (find params).CompilesNumbered := by
  obtain ⟨table, alias?, query, catalog⟩ := params
  obtain ⟨h, hcatalog⟩ := List.forall_mem_append.mp h
  obtain ⟨h, hquery⟩ := List.forall_mem_append.mp h
  obtain ⟨htable, halias⟩ := List.forall_mem_append.mp h
  obtain ⟨⟨⟩, hcheck, hok⟩ := exists_of_bind_eq_ok hok
  have halias : ∀ name ∈ alias?, NoAt name := by
    intro name hname
    exact noAt_of_contains (halias (.name name) (by simp [Option.mem_def.mp hname]))
  refine (lifts_query hcatalog (noAt_of_name htable) halias hquery hok).mono ?_
  rintro numbers text' ⟨query', hrelated, hok'⟩
  refine ⟨.find ⟨table, alias?, query', catalog⟩, .find hrelated, ?_⟩
  show (do checkTable table; query'.toSql catalog table alias? {}) = _
  rw [hcheck, hok']
  rfl

/-- The row of an INSERT comes first, then its conflict. -/
theorem lifts_insertOne {params : InsertParams} (h : AllNamed values (insertOne params).written)
    {text : String} (hok : (insertOne params).compile = .ok text) :
    Lifts values text (insertOne params).CompilesNumbered := by
  obtain ⟨hframe, hdata⟩ := List.forall_mem_append.mp h
  obtain ⟨⟨⟩, hcheck, hok⟩ := exists_of_bind_eq_ok hok
  obtain ⟨members, hmembers, hok⟩ := exists_of_bind_eq_ok hok
  obtain ⟨table, data, returning, conflict, catalog⟩ := params
  obtain ⟨rfl, hne⟩ := eq_object_of_checkMembers hmembers
  obtain ⟨hcolumns, hnamed⟩ := named_members hdata
  have hrows : ∀ row ∈ [Entries.values members], Json.itemsAreNamed values row = true := by
    rw [List.forall_mem_singleton, Json.itemsAreNamed_iff]
    intro value hvalue
    obtain ⟨entry, hentry, rfl⟩ := List.mem_map.mp hvalue
    exact hnamed entry hentry
  refine (lifts_insert hframe hcolumns hrows hok).mono ?_
  rintro numbers text' ⟨_, conflict', _ | ⟨hvalues, ⟨⟩⟩, hconflict, hok'⟩
  obtain ⟨members', hrelated, rfl⟩ := exists_of_values hvalues
  refine ⟨.insertOne ⟨table, .object members', returning, conflict', catalog⟩,
    .insertOne (.members hrelated) hconflict, ?_⟩
  have hkeys := keys_eq_of_keyed hrelated
  have hok' := hok' (.object members')
  rw [← hkeys] at hok'
  show (do
    checkTable table
    let members ← checkMembers .insertData (.object members')
    InsertParams.statement ⟨table, .object members', returning, conflict', catalog⟩
      (Entries.keys members) [Entries.values members]) = _
  rw [hcheck, checkMembers_related _ hne hrelated]
  exact hok'

/-- The rows of an INSERT with other values in its columns. -/
theorem exists_rows {R : Json → Json → Prop} (hrefl : ∀ value, R value value)
    (hnull : ∀ {value}, R .null value → value = .null) {columns : List String}
    (hdistinct : columns.Nodup) {rows : List Json} {cells changed : List (List Json)}
    (hcells : rows.mapM (InsertParams.rowValues columns) = .ok cells)
    (h : List.Forall₂ (List.Forall₂ R) cells changed) :
    ∃ rows', List.Forall₂ (Json.RowRelated R) rows rows' ∧
      rows'.mapM (InsertParams.rowValues columns) = .ok changed := by
  induction rows generalizing cells changed with
  | nil =>
    cases hcells
    cases h
    exact ⟨[], .nil, rfl⟩
  | cons row rest ih =>
    rw [List.mapM_cons] at hcells
    obtain ⟨own, hown, hcells⟩ := exists_of_bind_eq_ok hcells
    obtain ⟨others, hothers, hcells⟩ := exists_of_bind_eq_ok hcells
    cases hcells
    rcases h with _ | ⟨hfirst, hrest⟩
    obtain ⟨rest', hrelated, hrest'⟩ := ih hothers hrest
    cases row with
    | object members =>
      cases hown
      obtain ⟨new, rfl, hnew⟩ := exists_columnValues hdistinct hfirst
      obtain ⟨members', hmembers, hvalues⟩ := exists_of_columns hrefl hnull hnew
      refine ⟨.object members' :: rest', .cons (.members hmembers) hrelated, ?_⟩
      have hrow : InsertParams.rowValues columns (.object members') = .ok (columns.map new) :=
        congrArg Except.ok (List.map_congr_left hvalues)
      rw [List.mapM_cons, hrow, hrest']
      rfl
    | _ => cases hown

/-- A cell of a row is a value of the row, or the NULL that fills it up. -/
theorem eq_null_or_mem_of_rowValues {columns : List String} {row : Json} {cells : List Json}
    (hok : InsertParams.rowValues columns row = .ok cells) {cell : Json} (hcell : cell ∈ cells) :
    cell = .null ∨ ∃ members column, row = .object members ∧ (column, cell) ∈ members := by
  cases row with
  | object members =>
    cases hok
    obtain ⟨column, -, rfl⟩ := List.mem_map.mp hcell
    cases hvalue : Entries.get? members column with
    | none => exact Or.inl rfl
    | some value => exact Or.inr ⟨members, column, rfl, Entries.mem_of_get? hvalue⟩
  | _ => cases hok

/-- The NULL that fills a row up is no named value. -/
theorem named_rowValues {columns : List String} {row : Json} (h : AllNamed values row.rowWritten)
    {cells : List Json} (hok : InsertParams.rowValues columns row = .ok cells) :
    Json.itemsAreNamed values cells = true := by
  rw [Json.itemsAreNamed_iff]
  intro cell hcell
  rcases eq_null_or_mem_of_rowValues hok hcell with rfl | ⟨members, column, rfl, hmem⟩
  · rfl
  · exact (named_members h).2 _ hmem

/-- A row is found again from its numbered cells if no column is named twice, for then each cell
belongs to one column. -/
theorem lifts_insertMany {params : InsertParams} (h : AllNamed values (insertMany params).written)
    {text : String} (hok : (insertMany params).compile = .ok text) :
    Lifts values text fun numbers text' =>
      (insertMany params).columns.Nodup → (insertMany params).CompilesNumbered numbers text' := by
  obtain ⟨hframe, hdata⟩ := List.forall_mem_append.mp h
  obtain ⟨⟨⟩, hcheck, hok⟩ := exists_of_bind_eq_ok hok
  obtain ⟨table, data, returning, conflict, catalog⟩ := params
  match data with
  | .null | .bool _ | .number _ | .string _ | .object _ | .array [] => cases hok
  | .array (first :: rest) =>
    obtain ⟨members, hmembers, hok⟩ := exists_of_bind_eq_ok hok
    obtain ⟨cells, hcells, hok⟩ := exists_of_bind_eq_ok hok
    obtain ⟨rfl, hne⟩ := eq_object_of_checkMembers hmembers
    have hwritten : ∀ row ∈ .object members :: rest, AllNamed values row.rowWritten :=
      List.forall_mem_flatMap.mp hdata
    obtain ⟨hcolumns, -⟩ := named_members (hwritten _ List.mem_cons_self)
    -- every cell is a value of its row, or the NULL that fills it up
    have hrows : ∀ row ∈ cells, Json.itemsAreNamed values row = true := by
      intro row hrow
      obtain ⟨origin, horigin, hcell⟩ := exists_of_mem_mapM hcells row hrow
      exact named_rowValues (hwritten origin horigin) hcell
    refine (lifts_insert hframe hcolumns hrows hok).mono ?_
    rintro numbers text' ⟨cells', conflict', hcells', hconflict, hok'⟩
      (hdistinct : (Entries.keys members).Nodup)
    -- from the numbered cells back to numbered rows
    obtain ⟨rows', hrows', hok''⟩ := exists_rows Json.Numbered.same (by rintro _ ⟨⟩; rfl) hdistinct
      hcells hcells'
    rcases hrows' with _ | ⟨⟨hfirst⟩, hrest⟩
    rename_i rest' members'
    refine ⟨.insertMany ⟨table, .array (.object members' :: rest'), returning, conflict', catalog⟩,
      .insertMany (.rows (.cons (.members hfirst) hrest)) hconflict, ?_⟩
    -- the numbered rows have the same first columns, so they are filled up alike
    have hkeys := keys_eq_of_keyed hfirst
    have hok' := hok' (.array (.object members' :: rest'))
    rw [← hkeys] at hok' hok''
    show (do
      checkTable table
      let columns := Entries.keys (← checkMembers .insertRows (.object members'))
      let rows ← (Json.object members' :: rest').mapM (InsertParams.rowValues columns)
      InsertParams.statement
        ⟨table, .array (.object members' :: rest'), returning, conflict', catalog⟩
        columns rows) = _
    rw [hcheck, checkMembers_related _ hne hfirst]
    show (do
      let rows ← (Json.object members' :: rest').mapM
          (InsertParams.rowValues (Entries.keys members'))
      InsertParams.statement
        ⟨table, .array (.object members' :: rest'), returning, conflict', catalog⟩
        (Entries.keys members') rows) = _
    rw [hok'']
    exact hok'

/-- An UPDATE without members does not compile, and numbers leave the members there are. -/
theorem lifts_updated {params : UpdateParams} (h : AllNamed values (update params).written)
    {text : String} (hok : (update params).compile = .ok text) :
    Lifts values text (update params).CompilesNumbered := by
  obtain ⟨h, hcatalog⟩ := List.forall_mem_append.mp h
  obtain ⟨h, hreturning⟩ := List.forall_mem_append.mp h
  obtain ⟨h, hfilter⟩ := List.forall_mem_append.mp h
  obtain ⟨htable, hdata⟩ := List.forall_mem_append.mp h
  obtain ⟨⟨⟩, hcheck, hok⟩ := exists_of_bind_eq_ok hok
  obtain ⟨members, hmembers, hok⟩ := exists_of_bind_eq_ok hok
  obtain ⟨condition, hcondition, hok⟩ := exists_of_bind_eq_ok hok
  rw [← Except.ok.inj hok]
  clear hok
  obtain ⟨table, data, filter, returning, catalog⟩ := params
  obtain ⟨rfl, hne⟩ := eq_object_of_checkMembers hmembers
  have hreturning := noAt_of_names hreturning
  refine (lifts_update (noAt_of_name htable) hdata (lifts_conditionText hcatalog hfilter hcondition)
    hreturning).mono ?_
  rintro numbers _ ⟨members', condition', hrelated, ⟨filter', hfilter', hcondition'⟩, rfl⟩
  refine ⟨.update ⟨table, .object members', filter', returning, catalog⟩,
    .update (.members hrelated) hfilter', ?_⟩
  show (do
    checkTable table
    let assigned ← checkMembers .updateData (.object members')
    let filter ← conditionText catalog filter'
    return Sql.Update.toSql ⟨table, assigned, filter, returning⟩) = _
  rw [hcheck, checkMembers_related _ hne hrelated, hcondition']
  rfl

theorem lifts_deleted {params : DeleteParams} (h : AllNamed values (delete params).written)
    {text : String} (hok : (delete params).compile = .ok text) :
    Lifts values text (delete params).CompilesNumbered := by
  obtain ⟨h, hcatalog⟩ := List.forall_mem_append.mp h
  obtain ⟨h, hreturning⟩ := List.forall_mem_append.mp h
  obtain ⟨htable, hfilter⟩ := List.forall_mem_append.mp h
  obtain ⟨⟨⟩, hcheck, hok⟩ := exists_of_bind_eq_ok hok
  obtain ⟨condition, hcondition, hok⟩ := exists_of_bind_eq_ok hok
  rw [← Except.ok.inj hok]
  clear hok
  obtain ⟨table, filter, returning, catalog⟩ := params
  have hreturning := noAt_of_names hreturning
  refine (lifts_delete (noAt_of_name htable) (lifts_conditionText hcatalog hfilter hcondition)
    hreturning).mono ?_
  rintro numbers _ ⟨condition', ⟨filter', hfilter', hcondition'⟩, rfl⟩
  refine ⟨.delete ⟨table, filter', returning, catalog⟩, .delete hfilter', ?_⟩
  show (do
    checkTable table
    let filter ← conditionText catalog filter'
    return Sql.Delete.toSql ⟨table, filter, returning⟩) = _
  rw [hcheck, hcondition']
  rfl

/-- What is compiled with named values is, with numbers in its slots, what is compiled with
numbers. -/
theorem lifts_compile {statement : Statement} (h : AllNamed values statement.written)
    {text : String} (hok : statement.compile = .ok text) :
    Lifts values text fun numbers text' =>
      statement.columns.Nodup → statement.CompilesNumbered numbers text' := by
  cases statement with
  | find params => exact (lifts_find h hok).mono fun _ _ hcompiles _ => hcompiles
  | insertOne params => exact (lifts_insertOne h hok).mono fun _ _ hcompiles _ => hcompiles
  | insertMany params => exact lifts_insertMany h hok
  | update params => exact (lifts_updated h hok).mono fun _ _ hcompiles _ => hcompiles
  | delete params => exact (lifts_deleted h hok).mono fun _ _ hcompiles _ => hcompiles

/-! ## Binding -/

/-- A statement is not blank if its head is not. -/
theorem isBlankText_clauses {clauses : Sql.Clauses} (hhead : Text.isBlankText clauses.head = false)
    (append : Sql.Append) : Text.isBlankText (clauses.toSql append) = false := by
  rw [Sql.Clauses.toSql, Text.isBlankText_trim, Sql.Clauses.serialize_tokens, Sql.Clauses.front]
  simp only [Text.isBlankText_append, hhead, Bool.false_and]

/-- Every statement begins with a keyword. -/
theorem isBlankText_compile {statement : Statement} {sql : String}
    (hok : statement.compile = .ok sql) :
    Text.isBlankText sql = false := by
  -- both kinds of insert are the same statement over different rows
  have hinsert : ∀ {params : InsertParams} {columns : List String} {rows : List (List Json)},
      params.statement columns rows = .ok sql → Text.isBlankText sql = false := by
    intro params columns rows hok
    obtain ⟨conflict, -, hok⟩ := exists_of_bind_eq_ok hok
    rw [← Except.ok.inj hok, Sql.Insert.toSql, Sql.Insert.tokens]
    simp only [Sql.serialize_append, Sql.serialize_cons, Text.isBlankText_append]
    rfl
  cases statement with
  | find params =>
    obtain ⟨-, -, hok⟩ := exists_of_bind_eq_ok hok
    obtain ⟨expansion, -, hok⟩ := exists_of_bind_eq_ok hok
    rw [← Except.ok.inj hok, selectStatement]
    apply isBlankText_clauses
    dsimp only
    simp only [Text.isBlankText_append]
    rfl
  | insertOne params =>
    obtain ⟨-, -, hok⟩ := exists_of_bind_eq_ok hok
    obtain ⟨members, -, hok⟩ := exists_of_bind_eq_ok hok
    exact hinsert hok
  | insertMany params =>
    obtain ⟨-, -, hok⟩ := exists_of_bind_eq_ok hok
    split at hok
    · obtain ⟨members, -, hok⟩ := exists_of_bind_eq_ok hok
      obtain ⟨rows, -, hok⟩ := exists_of_bind_eq_ok hok
      exact hinsert hok
    · cases hok
  | update params =>
    obtain ⟨-, -, hok⟩ := exists_of_bind_eq_ok hok
    obtain ⟨members, -, hok⟩ := exists_of_bind_eq_ok hok
    obtain ⟨filter, -, hok⟩ := exists_of_bind_eq_ok hok
    rw [← Except.ok.inj hok, Sql.Update.toSql]
    apply isBlankText_clauses
    rw [Sql.update_head]
    simp only [Text.isBlankText_append]
    rfl
  | delete params =>
    obtain ⟨-, -, hok⟩ := exists_of_bind_eq_ok hok
    obtain ⟨filter, -, hok⟩ := exists_of_bind_eq_ok hok
    rw [← Except.ok.inj hok, Sql.Delete.toSql]
    apply isBlankText_clauses
    rw [Sql.delete_head]
    simp only [Text.isBlankText_append]
    rfl

/-- Compiling with named values and then binding them is compiling with positional parameters. The
compiled text has its at signs in the slots of a template; binding numbers the slots in order and
binds one value for each. The same text is compiled from the statement with those numbers for its
names, where an INSERT of several rows has every column once, as the keys of an object are. -/
theorem bind_compile {statement : Statement} (hnamed : AllNamed values statement.written)
    {sql : String} (hok : statement.compile = .ok sql) :
    ∃ template : Template, template.Fits values ∧ sql.toList = template.spelled ∧
      Binding.bind values sql =
        .ok ⟨String.ofList (template.positional 0), template.names.map (valueOf values)⟩ ∧
      (statement.columns.Nodup →
        statement.CompilesNumbered (template.names.zipIdx 1)
          (String.ofList (template.positional 0))) := by
  obtain ⟨template, htext, hlift⟩ := lifts_compile hnamed hok
  refine ⟨template, htext.fits, htext.spelled_eq, ?_, ?_⟩
  · exact htext.fits.bind_spelled htext.spelled_eq (isBlankText_compile hok)
  · apply hlift
    rw [String.toList_ofList]
    exact Template.numbered_positional (List.Subset.refl _)

/-- An INSERT of two rows that gives way to an UPDATE. -/
def signUp : Statement :=
  .insertMany ⟨"users",
    .array [.object [("name", .string "@name"), ("age", .number (.int 36))],
      .object [("age", .string "@age"), ("name", .string "@name")]],
    ["id"],
    some ⟨some ["name"], none, .doUpdate [("age", .string "@age")]
      (some (.ofEntries [("users.age", .comparisons [(.lessThan, .value (.string "@age"))])]))⟩,
    []⟩

def signUpValues : Entries String Json := [("age", .number (.int 41)), ("name", .string "Ada")]

def signUpSql : String :=
  "INSERT INTO \"users\" (\"name\", \"age\") VALUES ('@name', 36), ('@name', '@age') " ++
    "ON CONFLICT (\"name\") DO UPDATE SET \"age\" = '@age' WHERE \"users\".\"age\" < '@age' " ++
    "RETURNING \"id\""

theorem compile_signUp : signUp.compile = .ok signUpSql := eq_ok_of_toOption (by decide +kernel)

theorem bind_compile_signUp :
    (AllNamed signUpValues signUp.written ∧ signUp.compile = .ok signUpSql) ∧
      ∃ template : Template, template.Fits signUpValues ∧ signUpSql.toList = template.spelled ∧
        Binding.bind signUpValues signUpSql =
          .ok ⟨String.ofList (template.positional 0), template.names.map (valueOf signUpValues)⟩ ∧
        signUp.CompilesNumbered (template.names.zipIdx 1)
          (String.ofList (template.positional 0)) := by
  have hnamed : AllNamed signUpValues signUp.written := by decide +kernel
  have hdistinct : signUp.columns.Nodup := by decide
  obtain ⟨template, hfits, hsql, hbind, hcompiles⟩ := bind_compile hnamed compile_signUp
  exact ⟨⟨hnamed, compile_signUp⟩, template, hfits, hsql, hbind, hcompiles hdistinct⟩

end Statement

end DescriptorSql
