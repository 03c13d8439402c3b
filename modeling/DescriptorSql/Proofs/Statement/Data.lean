import DescriptorSql.Proofs.Compile.AlikeSelect
import DescriptorSql.Proofs.Statement.Written

/-!
# `Proofs/Statement/Data.lean` — data cannot change the structure of a statement

The data of the five operations goes into literals, and a literal's content decides nothing. So two
operations that are the same without their data fail with the same error, or compile to two texts
that differ in the content of their literals alone (`Statement.compile_of_withoutData_eq`).
-/

set_option autoImplicit false

namespace DescriptorSql

open Sql (Alike Chunk Grade isPlainName serialize)

/-! ## Data -/

namespace Json

/-- A row with its data emptied; the columns stay. -/
def rowWithoutData : Json → Json
  | .object members => .object (members.map fun (column, value) => (column, value.withoutData))
  | other => other.withoutData

/-- Rows with their data emptied. What is not a list is no rows, and stays that. -/
def rowsWithoutData : Json → Json
  | .array rows => .array (rows.map rowWithoutData)
  | other => other.withoutData

end Json

namespace ConflictSpec

/-- The rule with the data of its assignments and of its condition emptied. -/
def ruleWithoutData : ConflictRule → ConflictRule
  | .doNothing => .doNothing
  | .doUpdate data filter =>
    .doUpdate (data.map fun (column, value) => (column, value.withoutData))
      (Predicate.mapFilter Json.withoutData filter)

/-- What is done about a conflict without its data. The columns of the conflict stay. -/
def withoutData (spec : ConflictSpec) : ConflictSpec :=
  { spec with action := ruleWithoutData spec.action }

end ConflictSpec

namespace Statement

/-- The operation with its data emptied: values of rows and operands of conditions, at any depth. -/
def withoutData : Statement → Statement
  | find params => .find { params with query := params.query.mapValues Json.withoutData }
  | insertOne params =>
    .insertOne { params with
      data := params.data.rowWithoutData
      onConflict := params.onConflict.map ConflictSpec.withoutData }
  | insertMany params =>
    .insertMany { params with
      data := params.data.rowsWithoutData
      onConflict := params.onConflict.map ConflictSpec.withoutData }
  | update params =>
    .update { params with
      data := params.data.rowWithoutData
      filter := Predicate.mapFilter Json.withoutData params.filter }
  | delete params =>
    .delete { params with filter := Predicate.mapFilter Json.withoutData params.filter }

end Statement

/-! ## Rows -/

section

variable {catalog : Catalog}

/-- As many values, each written like the other. -/
abbrev AlikeValues : List Json → List Json → Prop :=
  List.Forall₂ fun first second => Alike .inert (Sql.literal first) (Sql.literal second)

/-- The same columns, and values that are written alike. -/
abbrev AlikeMembers : Entries String Json → Entries String Json → Prop :=
  Entries.Related fun first second => Alike .inert (Sql.literal first) (Sql.literal second)

/-- A plain row is written like the row without its data, column by column. -/
theorem alikeMembers_withoutData {members : Entries String Json}
    (h : AllPlain (members.flatMap fun (column, value) => [.name column, .value value])) :
    AlikeMembers (members.map fun (column, value) => (column, value.withoutData)) members := by
  rw [allPlain_flatMap] at h
  refine List.forall₂_map_left_iff.mpr (List.forall₂_same.mpr fun entry hentry => ⟨rfl, ?_⟩)
  exact Sql.alike_literal (h entry hentry (.value entry.2) (by simp))

theorem plain_columns {members : Entries String Json}
    (h : AllPlain (members.flatMap fun (column, value) => [.name column, .value value])) :
    ∀ column ∈ Entries.keys members, isPlainName column = true := by
  rw [allPlain_flatMap] at h
  intro column hcolumn
  obtain ⟨entry, hentry, rfl⟩ := List.mem_map.mp hcolumn
  exact h entry hentry (.name entry.1) (by simp)

theorem alike_valueList {first second : List Json} (h : AlikeValues first second) :
    Alike .closed (serialize (Sql.valueList first)) (serialize (Sql.valueList second)) := by
  refine Sql.alike_commaSeparated (Sql.forall₂_map (h.imp ?_))
  intro _ _ hvalue
  simpa [Sql.Token.text] using hvalue.toClosed

/-- Columns stay as they are in a SET, and the values behind them are literals. -/
theorem alike_assignments {grade : Grade} {first second : Entries String Json}
    (h : AlikeMembers first second)
    (hcolumns : ∀ column ∈ Entries.keys second, isPlainName column = true) :
    Alike grade (serialize (Sql.assignments first)) (serialize (Sql.assignments second)) := by
  refine Sql.alike_commaSeparated (Sql.forall₂_map ?_)
  induction h with
  | nil => exact .nil
  | @cons a b as bs hab hrest ih =>
    obtain ⟨column, value⟩ := a
    obtain ⟨column', value'⟩ := b
    obtain ⟨hcolumn, hvalue⟩ := hab
    dsimp only at hcolumn hvalue
    subst hcolumn
    have hname := hcolumns column (by simp [Entries.keys])
    have htext := (Sql.alike_identifier hname).glue hvalue
      (Grade.separates_equals _)
    refine .cons ?_ (ih fun other hother => hcolumns other (List.mem_cons_of_mem _ hother))
    have hassign : ∀ v : Json, serialize [.ident column, .space, .eq, .space, .value v] =
        Sql.identifier column ++ " = " ++ Sql.literal v := by
      intro v
      rw [← String.toList_inj]
      simp [Sql.Token.text]
    rw [hassign, hassign]
    exact htext.mono grade

/-- Related entries are for the same columns. -/
theorem keys_eq_of_related {κ ν ω : Type} {R : ν → ω → Prop} {as : Entries κ ν} {bs : Entries κ ω}
    (h : Entries.Related R as bs) : Entries.keys as = Entries.keys bs := by
  induction h with
  | nil => rfl
  | @cons a b as bs hab hrest ih =>
    show a.1 :: Entries.keys as = b.1 :: Entries.keys bs
    rw [hab.1, ih]

theorem alike_values {first second : Entries String Json} (h : AlikeMembers first second) :
    AlikeValues (Entries.values first) (Entries.values second) :=
  Sql.forall₂_map (h.imp fun _ _ hentry => hentry.2)

/-- What is no object is none without data either, so it is refused with the same error. -/
theorem nonemptyMembers?_withoutData (value : Json) (h : ∀ members, value ≠ .object members) :
    value.withoutData.nonemptyMembers? = none := by
  cases value with
  | object members => exact absurd rfl (h members)
  | string s =>
    rw [Json.withoutData]
    split <;> rfl
  | _ => rfl

/-- Emptying data keeps whether there are members to write, and which columns they are for. -/
theorem agree_checkMembers (violation : Violation) {data : Json} (h : AllPlain data.rowWritten) :
    Agree (fun first second => AlikeMembers first second ∧
        ∀ column ∈ Entries.keys second, isPlainName column = true)
      (checkMembers violation data.rowWithoutData) (checkMembers violation data) := by
  unfold checkMembers
  cases data with
  | object members =>
    cases members with
    | nil => exact rfl
    | cons member rest => exact ⟨alikeMembers_withoutData h, plain_columns h⟩
  | _ =>
    rw [Json.rowWithoutData, nonemptyMembers?_withoutData _ (by simp)]
    · exact rfl
    · simp

/-! ## Conditions and conflicts -/

/-- A condition of a statement is a predicate that stands on its own. -/
theorem agree_conditionText (hcatalog : AllPlain catalog.written) {filter : Option Predicate}
    (h : AllPlain (Harvest.written.filterOnly filter)) :
    Agree (Option.Rel (Alike .condition))
      (conditionText catalog (Predicate.mapFilter Json.withoutData filter))
      (conditionText catalog filter) := by
  match filter with
  | none => exact Option.Rel.none
  | some (.ofEntries entries) =>
    have hentries := agree_entryClauses hcatalog (allPlain_append.mp h).1
    have htext : Agree (Alike .condition)
        (Predicate.toSql catalog .and (.ofEntries (Condition.mapEntries Json.withoutData entries)))
        (Predicate.toSql catalog .and (.ofEntries entries)) :=
      (agree_gather hentries).map fun _ _ => alike_join
    exact htext.map fun _ _ htext => Sql.Clauses.rel_present (.some htext)

/-- What is done about a conflict is written alike. -/
def AlikeConflict (first second : Sql.OnConflict) : Prop :=
  Alike .closed (serialize first.tokens) (serialize second.tokens)

/-- The target names columns or a constraint, and has no data. -/
theorem alike_targetTokens {target : Sql.ConflictTarget}
    (h : match target with
      | .columns names => ∀ name ∈ names, isPlainName name = true
      | .constraint name => isPlainName name = true) :
    Alike .closed (serialize (Sql.OnConflict.targetTokens target))
      (serialize (Sql.OnConflict.targetTokens target)) := by
  cases target with
  | columns names =>
    have hlist : Alike .closed (serialize (Sql.nameList names)) (serialize (Sql.nameList names)) :=
      Sql.alike_nameList h
    have hnames := hlist.parenthesized
    simpa [Sql.OnConflict.targetTokens, Sql.parenthesized, Sql.Token.text, String.append_assoc]
      using hnames.toClosed
  | constraint name =>
    have hkeywords : Grade.closed.accepts "ON CONSTRAINT " = true := by decide
    have htext : serialize (Sql.OnConflict.targetTokens (.constraint name)) =
        "ON CONSTRAINT " ++ Sql.identifier name := by
      rw [← String.toList_inj]
      simp [Sql.OnConflict.targetTokens, Sql.Token.text, Sql.Keyword.text]
    rw [htext]
    exact (Sql.alike_identifier h).toClosed.behind hkeywords (by decide)

/-- The condition of a rule that updates. -/
def ruleFilterTokens (sql? : Option String) : List Sql.Token :=
  sql?.toList.flatMap fun sql => Sql.spaced [.keyword .«where», .fragment sql]

/-- The update of a conflict, split at its assignments and its condition. -/
theorem serialize_doUpdate (assigned : Entries String Json) (filter : Option String) :
    serialize (Sql.OnConflict.actionTokens (.doUpdate assigned filter)) =
      "UPDATE SET " ++ serialize (Sql.assignments assigned) ++
        serialize (ruleFilterTokens (Sql.present filter)) := by
  rw [Sql.OnConflict.actionTokens, Sql.serialize_append, Sql.serialize_append, Sql.present]
  cases filter.filter (!·.isEmpty) with
  | none => rfl
  | some sql =>
    rw [ruleFilterTokens, Option.toList_some, List.flatMap_singleton]
    rfl

theorem alike_actionTokens {assigned assigned' : Entries String Json}
    {filter filter' : Option String} (hassigned : AlikeMembers assigned assigned')
    (hcolumns : ∀ column ∈ Entries.keys assigned', isPlainName column = true)
    (hfilter : Option.Rel (Alike .condition) filter filter') :
    Alike .closed (serialize (Sql.OnConflict.actionTokens (.doUpdate assigned filter)))
      (serialize (Sql.OnConflict.actionTokens (.doUpdate assigned' filter'))) := by
  have hkeywords : Grade.closed.accepts "UPDATE SET " = true := by decide
  have hassignments := (alike_assignments hassigned hcolumns).behind hkeywords (by decide)
  have hpresent := Sql.Clauses.rel_present hfilter
  rw [serialize_doUpdate, serialize_doUpdate]
  revert hpresent
  generalize Sql.present filter = text?, Sql.present filter' = text'?
  intro hpresent
  cases hpresent with
  | none => exact hassignments.chunk Chunk.nil
  | some h =>
    rw [ruleFilterTokens, ruleFilterTokens, Option.toList_some, Option.toList_some,
      List.flatMap_singleton, List.flatMap_singleton]
    exact hassignments.chunk (.spaced (.cons (.keyword _) (.cons h.toClosed .nil)))

/-- A rule that updates needs members to write, with data and without. -/
theorem agree_rule (hcatalog : AllPlain catalog.written) {rule : ConflictRule}
    (h : AllPlain (ConflictSpec.ruleWritten rule)) :
    Agree (fun first second => Alike .closed (serialize (Sql.OnConflict.actionTokens first))
        (serialize (Sql.OnConflict.actionTokens second)))
      (ConflictSpec.rule catalog (ConflictSpec.ruleWithoutData rule))
      (ConflictSpec.rule catalog rule) := by
  cases rule with
  | doNothing => exact Alike.ofAccepts (show Grade.closed.accepts "NOTHING" = true by decide)
  | doUpdate data filter =>
    cases data with
    | nil => exact rfl
    | cons member rest =>
      obtain ⟨hdata, hfilter⟩ := allPlain_append.mp h
      exact (agree_conditionText hcatalog hfilter).map fun _ _ hfilter =>
        alike_actionTokens (alikeMembers_withoutData hdata) (plain_columns hdata) hfilter

/-- The target is checked before the rule, and it is the same with data and without. So both fail at
the same point. -/
theorem agree_clause (hcatalog : AllPlain catalog.written) {spec : ConflictSpec}
    (h : AllPlain spec.written) :
    Agree AlikeConflict (spec.withoutData.clause catalog) (spec.clause catalog) := by
  obtain ⟨htarget, hrule⟩ := allPlain_append.mp h
  obtain ⟨hcolumns, hconstraint⟩ := allPlain_append.mp htarget
  have hname : ∀ target, spec.target = .ok target →
      Alike .closed (serialize (Sql.OnConflict.targetTokens target))
        (serialize (Sql.OnConflict.targetTokens target)) := by
    intro target hok
    refine alike_targetTokens ?_
    unfold ConflictSpec.target at hok
    split at hok
    · next first rest hfirst hnone =>
      cases hok
      intro name hmem
      exact hcolumns (.name name) (by simpa [hfirst] using hmem)
    · next name hnone hsome =>
      split at hok
      · cases hok
      · cases hok
        exact hconstraint (.name name) (by simp [hsome])
    · cases hok
  -- the target has no data, so it is one and the same
  apply Agree.bind_same
  intro target hok
  have htarget := hname target hok
  apply (agree_rule hcatalog hrule).bind
  intro action action' _ _ haction
  have htext : ∀ action : Sql.ConflictAction, serialize (Sql.OnConflict.tokens ⟨target, action⟩) =
      "ON CONFLICT " ++ serialize (Sql.OnConflict.targetTokens target) ++ " DO " ++
        serialize (Sql.OnConflict.actionTokens action) := by
    intro action
    rw [← String.toList_inj]
    simp [Sql.OnConflict.tokens, Sql.Token.text, Sql.Keyword.text]
  have hkeywords : Grade.closed.accepts "ON CONFLICT " = true := by decide
  show Alike .closed _ _
  rw [htext, htext]
  exact (htarget.behind hkeywords (by decide)).glue haction (by decide)

/-! ## Inserts -/

theorem get?_map_withoutData (members : Entries String Json) (column : String) :
    Entries.get? (members.map fun (column, value) => (column, value.withoutData)) column =
      (Entries.get? members column).map Json.withoutData := by
  induction members with
  | nil => rfl
  | cons member rest ih =>
    obtain ⟨key, value⟩ := member
    rw [List.map_cons, Entries.get?, Entries.get?]
    split
    · rfl
    · exact ih

/-- A row that is no object is refused. Of any other row the columns are filled up, with NULL for
the missing ones. -/
theorem agree_rowValues (columns : List String) {row : Json} (h : AllPlain row.rowWritten) :
    Agree AlikeValues (InsertParams.rowValues columns row.rowWithoutData)
      (InsertParams.rowValues columns row) := by
  cases row with
  | object members =>
    -- a column that the row does not have is written as NULL
    refine Sql.forall₂_map (List.forall₂_same.mpr ?_)
    intro column _
    rw [get?_map_withoutData]
    cases hvalue : Entries.get? members column with
    | none => exact .ofAccepts (by decide)
    | some value =>
      rw [Json.rowWritten, allPlain_flatMap] at h
      exact Sql.alike_literal
        (h _ (Entries.mem_of_get? hvalue) (.value value) (by simp))
  | string s =>
    rw [Json.rowWithoutData, Json.withoutData]
    · split <;> exact rfl
    · simp
  | _ => exact rfl

/-- Agreement on every item is agreement on the list. -/
theorem agree_mapM {α β : Type} {R : β → β → Prop} {f : α → Except QueryError β} (g : α → α)
    {items : List α} (h : ∀ item ∈ items, Agree R (f (g item)) (f item)) :
    Agree (List.Forall₂ R) ((items.map g).mapM f) (items.mapM f) := by
  induction items with
  | nil => exact List.Forall₂.nil
  | cons item rest ih =>
    rw [List.forall_mem_cons] at h
    rw [List.map_cons, List.mapM_cons, List.mapM_cons]
    exact h.1.bind fun _ _ _ _ hfirst => (ih h.2).bind fun _ _ _ _ hrest =>
      List.Forall₂.cons hfirst hrest

/-- The rows are parenthesised lists of values with commas among them. -/
theorem chunk_rowTokens {first second : List (List Json)}
    (h : List.Forall₂ AlikeValues first second) :
    Chunk .closed (serialize (Sql.Insert.rowTokens first))
      (serialize (Sql.Insert.rowTokens second)) := by
  have hrow : ∀ row : List Json, serialize (.space :: Sql.parenthesized (Sql.valueList row)) =
      " " ++ ("(" ++ serialize (Sql.valueList row) ++ ")") := by
    intro row
    simp [Sql.parenthesized, Sql.Token.text, String.append_assoc]
  have hrows : ∀ rows : List (List Json), serialize (Sql.Insert.rowTokens rows) =
      ",".intercalate
        (rows.map fun row => " " ++ ("(" ++ serialize (Sql.valueList row) ++ ")")) := by
    intro rows
    rw [Sql.Insert.rowTokens, Sql.serialize_intercalate, List.map_map]
    congr 1
    exact List.map_congr_left fun row _ => hrow row
  have hstart : ∀ rows : List (List Json),
      Sql.startsApart (serialize (Sql.Insert.rowTokens rows)).toList = true := by
    intro rows
    rw [hrows]
    cases rows with
    | nil => rfl
    | cons row rest =>
      rw [List.map_cons, String.intercalate_cons_append, String.toList_append]
      exact Sql.startsApart_append _ (by decide) (by decide)
  refine ⟨?_, hstart first, hstart second⟩
  rw [hrows, hrows]
  have halike := h.imp fun _ _ hvalues =>
    (Chunk.space ((alike_valueList hvalues).parenthesized.toClosed)).alike
  exact Alike.intercalate (Sql.forall₂_map halike) (by decide)

/-- Of an INSERT, only the rows and the conflict depend on the data, and both stand between words
that stay. -/
theorem alike_insert {table : String} (htable : isPlainName table = true) {columns : List String}
    (hcolumns : ∀ column ∈ columns, isPlainName column = true) {rows rows' : List (List Json)}
    (hrows : List.Forall₂ AlikeValues rows rows') {conflict conflict' : Option Sql.OnConflict}
    (hconflict : Option.Rel AlikeConflict conflict conflict') {returning : List String}
    (hreturning : ∀ column ∈ returning, isPlainName column = true) :
    Alike .closed (Sql.Insert.toSql ⟨table, columns, rows, conflict, returning⟩)
      (Sql.Insert.toSql ⟨table, columns, rows', conflict', returning⟩) := by
  -- in front of the rows nothing depends on the data
  have hhead : Alike .closed (serialize [.keyword .insert, .space, .keyword .into, .space,
      .ident table])
        (serialize [.keyword .insert, .space, .keyword .into, .space, .ident table]) := by
    have hkeywords : Grade.closed.accepts "INSERT INTO " = true := by decide
    have htext : serialize [.keyword .insert, .space, .keyword .into, .space, .ident table] =
        "INSERT INTO " ++ Sql.identifier table := by
      rw [← String.toList_inj]
      simp [Sql.Token.text, Sql.Keyword.text]
    rw [htext]
    exact (Sql.alike_identifier htable).toClosed.behind hkeywords (by decide)
  have hlist : Chunk .closed
      (serialize (if columns.isEmpty then []
        else .space :: Sql.parenthesized (Sql.nameList columns)))
      (serialize (if columns.isEmpty then []
        else .space :: Sql.parenthesized (Sql.nameList columns))) := by
    split
    · exact Chunk.nil
    · have hnames :
          Alike .closed (serialize (Sql.nameList columns)) (serialize (Sql.nameList columns)) :=
        Sql.alike_nameList hcolumns
      simpa [Sql.parenthesized, Sql.Token.text, String.append_assoc]
        using Chunk.space hnames.parenthesized.toClosed
  -- the rows are as many with data as without, so VALUES is there with both or with neither
  have hvalues : Chunk .closed
      (serialize (if rows.isEmpty then []
        else Sql.spaced [.keyword .values] ++ Sql.Insert.rowTokens rows))
      (serialize (if rows'.isEmpty then []
        else Sql.spaced [.keyword .values] ++ Sql.Insert.rowTokens rows')) := by
    cases hrows with
    | nil => exact Chunk.nil
    | cons hrow hrest =>
      rw [List.isEmpty_cons, List.isEmpty_cons, if_neg (by decide), if_neg (by decide),
        Sql.serialize_append, Sql.serialize_append]
      exact (Chunk.spaced (.cons (.keyword .values) .nil)).append
        (chunk_rowTokens (.cons hrow hrest))
  rw [Sql.Insert.toSql, Sql.Insert.toSql, Sql.Insert.tokens, Sql.Insert.tokens]
  simp only [Sql.serialize_append]
  have hkeyword : Sql.Keyword.returning ∈ Sql.Opening.keywords := by decide
  refine (((hhead.chunk hlist).chunk hvalues).chunk ?_).chunk
    (Sql.opening_namesClause hkeyword hreturning).chunk
  cases hconflict with
  | none => exact Chunk.nil
  | some h => simpa [Sql.Token.text] using Chunk.space h

/-! ## Updates and deletes -/

theorem alike_update {table : String} (htable : isPlainName table = true)
    {assigned assigned' : Entries String Json} (hassigned : AlikeMembers assigned assigned')
    (hcolumns : ∀ column ∈ Entries.keys assigned', isPlainName column = true)
    {filter filter' : Option String} (hfilter : Option.Rel (Alike .condition) filter filter')
    {returning : List String} (hreturning : ∀ column ∈ returning, isPlainName column = true) :
    Alike .closed (Sql.Update.toSql ⟨table, assigned, filter, returning⟩)
      (Sql.Update.toSql ⟨table, assigned', filter', returning⟩) := by
  have htext : ∀ assigned : Entries String Json,
      (Sql.Update.clauses ⟨table, assigned, none, []⟩).head =
        "UPDATE " ++ Sql.identifier table ++ " SET " ++ serialize (Sql.assignments assigned) := by
    intro assigned
    rw [← String.toList_inj]
    simp [Sql.Update.clauses, Sql.Token.text, Sql.Keyword.text]
  have hkeyword : Grade.inert.accepts "UPDATE " = true := by decide
  have hfront := ((Sql.alike_identifier htable).behind hkeyword (by decide)).toClosed
  have hhead := hfront.glue (alike_assignments hassigned hcolumns)
    (show Grade.closed.separates " SET " = true by decide)
  rw [← htext, ← htext] at hhead
  exact Sql.Clauses.alike_toSql hhead Chunk.nil hfilter .none .none rfl ⟨rfl, rfl, rfl, rfl, rfl⟩
    (.ofReturning rfl rfl rfl rfl hreturning)

theorem alike_delete {table : String} (htable : isPlainName table = true)
    {filter filter' : Option String} (hfilter : Option.Rel (Alike .condition) filter filter')
    {returning : List String} (hreturning : ∀ column ∈ returning, isPlainName column = true) :
    Alike .closed (Sql.Delete.toSql ⟨table, filter, returning⟩)
      (Sql.Delete.toSql ⟨table, filter', returning⟩) := by
  have htext : (Sql.Delete.clauses ⟨table, none, []⟩).head =
      "DELETE FROM " ++ Sql.identifier table := by
    rw [← String.toList_inj]
    simp [Sql.Delete.clauses, Sql.Token.text, Sql.Keyword.text]
  have hkeyword : Grade.inert.accepts "DELETE FROM " = true := by decide
  have hhead := ((Sql.alike_identifier htable).behind hkeyword (by decide)).toClosed
  rw [← htext] at hhead
  exact Sql.Clauses.alike_toSql hhead Chunk.nil hfilter .none .none rfl ⟨rfl, rfl, rfl, rfl, rfl⟩
    (.ofReturning rfl rfl rfl rfl hreturning)

/-- What surrounds the rows of an insert: its table, its columns to return, its conflict and its
catalog. -/
theorem plain_frame {params : InsertParams} (h : AllPlain params.frameWritten) :
    isPlainName params.table = true ∧ (∀ column ∈ params.returning, isPlainName column = true) ∧
      (∀ spec, params.onConflict = some spec → AllPlain spec.written) ∧
      AllPlain params.relations.written := by
  simp only [InsertParams.frameWritten, allPlain_append, allPlain_cons, allPlain_nil,
    allPlain_flatMap, Written.isPlain, and_true] at h
  obtain ⟨⟨⟨htable, hreturning⟩, hconflict⟩, hcatalog⟩ := h
  refine ⟨htable, ?_, fun spec hspec => hconflict spec (by simp [hspec]), hcatalog⟩
  intro column hcolumn
  exact hreturning (.name column) (List.mem_map_of_mem hcolumn)

theorem agree_statement {params : InsertParams} (h : AllPlain params.frameWritten) {data : Json}
    {columns : List String} (hcolumns : ∀ column ∈ columns, isPlainName column = true)
    {rows rows' : List (List Json)} (hrows : List.Forall₂ AlikeValues rows rows') :
    Agree (Alike .closed)
      (InsertParams.statement
        { params with data := data, onConflict := params.onConflict.map ConflictSpec.withoutData }
        columns rows)
      (params.statement columns rows') := by
  obtain ⟨htable, hreturning, hconflict, hcatalog⟩ := plain_frame h
  have hclause : Agree (Option.Rel AlikeConflict)
      ((params.onConflict.map ConflictSpec.withoutData).mapM (ConflictSpec.clause params.relations))
      (params.onConflict.mapM (ConflictSpec.clause params.relations)) := by
    cases hspec : params.onConflict with
    | none => exact Option.Rel.none
    | some spec => exact (agree_clause hcatalog (hconflict spec hspec)).map fun _ _ => .some
  exact hclause.bind fun _ _ _ _ hconflict =>
    alike_insert htable hcolumns hrows hconflict hreturning

end

namespace Statement

theorem agree_insertOne {params : InsertParams} (h : AllPlain (insertOne params).written) :
    Agree (Alike .closed) (insertOne params).withoutData.compile (insertOne params).compile := by
  obtain ⟨hframe, hdata⟩ := allPlain_append.mp h
  apply Agree.bind_same
  intro _ _
  refine (agree_checkMembers .insertData hdata).bind ?_
  rintro members members' _ _ ⟨hmembers, hcolumns⟩
  rw [keys_eq_of_related hmembers]
  exact agree_statement hframe hcolumns (.cons (alike_values hmembers) .nil)

/-- The columns are those of the first row, which emptying the data keeps, so every row is refused
or filled up as before. -/
theorem agree_insertMany {params : InsertParams} (h : AllPlain (insertMany params).written) :
    Agree (Alike .closed) (insertMany params).withoutData.compile (insertMany params).compile := by
  obtain ⟨hframe, hdata⟩ := allPlain_append.mp h
  obtain ⟨table, data, returning, conflict, catalog⟩ := params
  apply Agree.bind_same
  intro _ _
  cases data with
  | array rows =>
    cases rows with
    | nil => exact rfl
    | cons first rest =>
      have hrows : ∀ row ∈ first :: rest, AllPlain row.rowWritten := allPlain_flatMap.mp hdata
      refine (agree_checkMembers .insertRows (hrows first List.mem_cons_self)).bind ?_
      rintro members members' _ _ ⟨hmembers, hcolumns⟩
      -- the first row decides on the columns, and emptying its data leaves them
      rw [keys_eq_of_related hmembers]
      have hvalues := agree_mapM Json.rowWithoutData fun row hrow =>
        agree_rowValues (Entries.keys members') (hrows row hrow)
      exact hvalues.bind fun _ _ _ _ hvalues => agree_statement hframe hcolumns hvalues
  | string s =>
    dsimp only [Json.rowsWithoutData, Json.withoutData]
    cases Sql.isData s <;> exact rfl
  | _ => exact rfl

/-- An update without members is refused, and emptying the data leaves their number. -/
theorem agree_update {params : UpdateParams} (h : AllPlain (update params).written) :
    Agree (Alike .closed) (update params).withoutData.compile (update params).compile := by
  simp only [written, allPlain_append, allPlain_cons, allPlain_nil, Written.isPlain, and_true] at h
  obtain ⟨⟨⟨⟨htable, hdata⟩, hfilter⟩, hreturning⟩, hcatalog⟩ := h
  apply Agree.bind_same
  intro _ _
  refine (agree_checkMembers .updateData hdata).bind ?_
  rintro members members' _ _ ⟨hmembers, hcolumns⟩
  exact (agree_conditionText hcatalog hfilter).bind fun _ _ _ _ hfilter =>
    alike_update htable hmembers hcolumns hfilter fun column hcolumn =>
      hreturning (.name column) (List.mem_map_of_mem hcolumn)

theorem agree_delete {params : DeleteParams} (h : AllPlain (delete params).written) :
    Agree (Alike .closed) (delete params).withoutData.compile (delete params).compile := by
  simp only [written, allPlain_append, allPlain_cons, allPlain_nil, Written.isPlain, and_true] at h
  obtain ⟨⟨⟨htable, hfilter⟩, hreturning⟩, hcatalog⟩ := h
  apply Agree.bind_same
  intro _ _
  exact (agree_conditionText hcatalog hfilter).bind fun _ _ _ _ hfilter =>
    alike_delete htable hfilter fun column hcolumn =>
      hreturning (.name column) (List.mem_map_of_mem hcolumn)

/-- An operation and the same operation without its data compile alike. -/
theorem agree_compile {statement : Statement} (h : AllPlain statement.written) :
    Agree (Alike .closed) statement.withoutData.compile statement.compile := by
  cases statement with
  | find params =>
    simp only [written, allPlain_append, allPlain_cons, allPlain_nil, Written.isPlain,
      and_true] at h
    obtain ⟨⟨⟨htable, halias⟩, hquery⟩, hcatalog⟩ := h
    have halias : ∀ name, params.tableAlias = some name → isPlainName name = true :=
      fun name hname => halias (.name name) (by simp [hname])
    apply Agree.bind_same
    intro _ _
    exact agree_toSql hcatalog htable halias hquery
  | insertOne params => exact agree_insertOne h
  | insertMany params => exact agree_insertMany h
  | update params => exact agree_update h
  | delete params => exact agree_delete h

/-- Data decides neither whether an operation compiles, nor with which error it fails, nor anything
of its text but the content of literals. -/
theorem compile_of_withoutData_eq {first second : Statement}
    (hsame : first.withoutData = second.withoutData) (hfirst : AllPlain first.written)
    (hsecond : AllPlain second.written) :
    Agree (fun a b => ∃ shape, Sql.shape? a = some shape ∧ Sql.shape? b = some shape)
      first.compile second.compile := by
  have hleft := agree_compile hfirst
  have hright := agree_compile hsecond
  rw [← hsame] at hright
  exact hleft.of_common hright fun _ _ _ hab hac => (hab.trans hac).exists_shape

/-- An INSERT of one row, a name. -/
def insertName (name : String) : Statement :=
  .insertOne ⟨"users", .object [("name", .string name)], ["id"], none, []⟩

/-- Quotes and backslashes in a value do not end its literal. -/
theorem compile_insertName :
    ((insertName "Ada").withoutData = (insertName "\\'); DROP TABLE users; --").withoutData ∧
        AllPlain (insertName "Ada").written ∧
        AllPlain (insertName "\\'); DROP TABLE users; --").written) ∧
      Agree (fun a b => ∃ shape, Sql.shape? a = some shape ∧ Sql.shape? b = some shape)
        (insertName "Ada").compile (insertName "\\'); DROP TABLE users; --").compile :=
  ⟨⟨rfl, by decide, by decide⟩, compile_of_withoutData_eq rfl (by decide) (by decide)⟩

end Statement

end DescriptorSql
