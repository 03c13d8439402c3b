import DescriptorSql.Proofs.Compile.NumberedSelect
import DescriptorSql.Proofs.Statement.Written

/-!
# `Proofs/Statement/Numbered.lean` — statements with numbered values

An operation whose values are named compiles to a text with slots, and with numbers in the slots
that is the text of the operation with numbers for the names (`Statement.lifts_compile`). An INSERT
of several rows writes the columns of its first row, so what has to be put back is the value of
every column in every row; a column that comes up once has one value.
-/

set_option autoImplicit false

namespace DescriptorSql

open Binding (Lifts LiftsAll LiftsOption SlotNumbers)
open Sql (ClosesApart NoAt OpensApart serialize startsApart)

/-! ## Related operations -/

inductive Json.RowRelated (R : Json → Json → Prop) : Json → Json → Prop
  | members {members members' : Entries String Json} : List.Forall₂ (Keyed R) members members' →
      Json.RowRelated R (.object members) (.object members')

inductive Json.RowsRelated (R : Json → Json → Prop) : Json → Json → Prop
  | rows {rows rows' : List Json} : List.Forall₂ (Json.RowRelated R) rows rows' →
      Json.RowsRelated R (.array rows) (.array rows')

inductive ConflictRule.Related (R : Json → Json → Prop) : ConflictRule → ConflictRule → Prop
  | doNothing : ConflictRule.Related R .doNothing .doNothing
  | doUpdate {data data' : Entries String Json} {filter filter' : Option Predicate} :
      List.Forall₂ (Keyed R) data data' → Option.Rel (Predicate.Related R) filter filter' →
      ConflictRule.Related R (.doUpdate data filter) (.doUpdate data' filter')

inductive ConflictSpec.Related (R : Json → Json → Prop) : ConflictSpec → ConflictSpec → Prop
  | mk {columns : Option (List String)} {constraint : Option String}
    {action action' : ConflictRule} :
      ConflictRule.Related R action action' →
      ConflictSpec.Related R ⟨columns, constraint, action⟩ ⟨columns, constraint, action'⟩

/-- The same operation with related values in its data, conditions and row counts. -/
inductive Statement.Related (R : Json → Json → Prop) : Statement → Statement → Prop
  | find {table : String} {alias? : Option String} {query query' : SelectQuery}
    {catalog : Catalog} :
      SelectQuery.Related R query query' →
      Statement.Related R (.find ⟨table, alias?, query, catalog⟩)
        (.find ⟨table, alias?, query', catalog⟩)
  | insertOne {table : String} {data data' : Json} {returning : List String}
      {conflict conflict' : Option ConflictSpec} {catalog : Catalog} :
      Json.RowRelated R data data' → Option.Rel (ConflictSpec.Related R) conflict conflict' →
      Statement.Related R (.insertOne ⟨table, data, returning, conflict, catalog⟩)
        (.insertOne ⟨table, data', returning, conflict', catalog⟩)
  | insertMany {table : String} {data data' : Json} {returning : List String}
      {conflict conflict' : Option ConflictSpec} {catalog : Catalog} :
      Json.RowsRelated R data data' → Option.Rel (ConflictSpec.Related R) conflict conflict' →
      Statement.Related R (.insertMany ⟨table, data, returning, conflict, catalog⟩)
        (.insertMany ⟨table, data', returning, conflict', catalog⟩)
  | update {table : String} {data data' : Json} {filter filter' : Option Predicate}
      {returning : List String} {catalog : Catalog} :
      Json.RowRelated R data data' → Option.Rel (Predicate.Related R) filter filter' →
      Statement.Related R (.update ⟨table, data, filter, returning, catalog⟩)
        (.update ⟨table, data', filter', returning, catalog⟩)
  | delete {table : String} {filter filter' : Option Predicate} {returning : List String}
      {catalog : Catalog} : Option.Rel (Predicate.Related R) filter filter' →
      Statement.Related R (.delete ⟨table, filter, returning, catalog⟩)
        (.delete ⟨table, filter', returning, catalog⟩)

variable {values : Entries String Json} {catalog : Catalog}

/-! ## Conditions -/

/-- The condition of a statement stands alone, so it is numbered as any predicate is. -/
theorem lifts_conditionText (hcatalog : AllNamed values catalog.written) {filter : Option Predicate}
    (h : AllNamed values (Harvest.written.filterOnly filter)) {text? : Option String}
    (hok : conditionText catalog filter = .ok text?) :
    LiftsOption values text? fun numbers text?' => ∃ filter',
      Option.Rel (Predicate.Related (Json.Numbered numbers)) filter filter' ∧
        conditionText catalog filter' = .ok text?' := by
  cases filter with
  | none =>
    cases hok
    exact .none fun _ => ⟨none, .none, rfl⟩
  | some predicate =>
    obtain ⟨text, htext, rfl⟩ := exists_of_map_eq_ok hok
    have hpredicate := carries_filter hcatalog h predicate (by simp)
    refine LiftsAll.mono (LiftsOption.some (hpredicate.lifts_toSql htext)).present ?_
    rintro numbers _ ⟨_, rfl, text', rfl, predicate', hrelated, htext'⟩
    refine ⟨_, rfl, some predicate', .some hrelated, ?_⟩
    rw [conditionText, htext']
    rfl

/-! ## Rows -/

/-- What is written of the columns of a row and of its values. -/
theorem named_members {members : Entries String Json}
    (h : AllNamed values (members.flatMap fun (column, value) => [.name column, .value value])) :
    (∀ column ∈ Entries.keys members, NoAt column) ∧
      ∀ entry ∈ members, entry.2.isNamed values = true := by
  constructor
  · intro column hcolumn
    obtain ⟨entry, hentry, rfl⟩ := List.mem_map.mp hcolumn
    exact noAt_of_contains (List.forall_mem_flatMap.mp h entry hentry (.name entry.1) (by simp))
  · intro entry hentry
    exact List.forall_mem_flatMap.mp h entry hentry (.value entry.2) (by simp)

/-- `column = value`. -/
def assignmentText (entry : String × Json) : String :=
  Sql.identifier entry.1 ++ " = " ++ Sql.literal entry.2

/-- An UPDATE sets its columns one after the other, with commas among them. -/
theorem serialize_assignments (members : Entries String Json) :
    serialize (Sql.assignments members) = ", ".intercalate (members.map assignmentText) := by
  rw [Sql.assignments, Sql.commaSeparated, Sql.serialize_intercalate, List.map_map]
  congr 1
  refine List.map_congr_left fun entry _ => ?_
  rw [← String.toList_inj]
  simp [assignmentText, Sql.Token.text]

/-- The values of assignments are numbered in their order, the columns stay. -/
theorem lifts_assignments {members : Entries String Json}
    (h : AllNamed values (members.flatMap fun (column, value) => [.name column, .value value])) :
    Lifts values (serialize (Sql.assignments members)) fun numbers text => ∃ members',
      List.Forall₂ (Keyed (Json.Numbered numbers)) members members' ∧
        text = serialize (Sql.assignments members') := by
  have htexts : LiftsAll values (members.map assignmentText) fun numbers texts => ∃ members',
      List.Forall₂ (Keyed (Json.Numbered numbers)) members members' ∧
        texts = members'.map assignmentText := by
    induction members with
    | nil =>
      refine LiftsAll.nil.mono ?_
      rintro numbers _ rfl
      exact ⟨[], .nil, rfl⟩
    | cons entry rest ih =>
      obtain ⟨column, value⟩ := entry
      obtain ⟨hentry, hrest⟩ := List.forall_mem_append.mp h
      have hcolumn : NoAt column := noAt_of_contains (hentry (.name column) (by simp))
      have hlead : OpensApart (Sql.identifier column ++ " = ") :=
        (Sql.noAt_identifier hcolumn).opensApart (by decide) (by simp)
      have hvalue := (lifts_literal (hentry (.value value) (by simp))).behind hlead
      refine ((LiftsAll.single hvalue).append (ih hrest)).mono ?_
      rintro numbers _ ⟨_, _, rfl, ⟨_, rfl, _, rfl, value', hnumbered, rfl⟩, rest', hrest', rfl⟩
      exact ⟨(column, value') :: rest', .cons (.mk hnumbered) hrest', rfl⟩
  rw [serialize_assignments]
  refine (htexts.intercalate (show NoAt ", " by decide) (by decide)).mono ?_
  rintro numbers _ ⟨_, rfl, members', hmembers, rfl⟩
  exact ⟨members', hmembers, (serialize_assignments members').symm⟩

/-- The rows of an INSERT are lists of values. -/
theorem lifts_rows {rows : List (List Json)}
    (h : ∀ row ∈ rows, Json.itemsAreNamed values row = true) :
    LiftsAll values (rows.map Sql.literalList) fun numbers texts => ∃ rows',
      List.Forall₂ (List.Forall₂ (Json.Numbered numbers)) rows rows' ∧
        texts = rows'.map Sql.literalList := by
  induction rows with
  | nil =>
    refine LiftsAll.nil.mono ?_
    rintro numbers _ rfl
    exact ⟨[], .nil, rfl⟩
  | cons row rest ih =>
    obtain ⟨hrow, hrest⟩ := List.forall_mem_cons.mp h
    refine ((LiftsAll.single (lifts_literalList hrow)).append (ih hrest)).mono ?_
    rintro numbers _ ⟨_, _, rfl, ⟨_, rfl, row', hrow', rfl⟩, rest', hrest', rfl⟩
    exact ⟨row' :: rest', .cons hrow' hrest', rfl⟩

/-- Members with other values. -/
theorem exists_of_values {R : Json → Json → Prop} {members : Entries String Json}
    {changed : List Json} (h : List.Forall₂ R (Entries.values members) changed) :
    ∃ members', List.Forall₂ (Keyed R) members members' ∧ Entries.values members' = changed := by
  induction members generalizing changed with
  | nil =>
    cases h
    exact ⟨[], .nil, rfl⟩
  | cons member rest ih =>
    rcases h with _ | ⟨hfirst, hothers⟩
    obtain ⟨rest', hrest, rfl⟩ := ih hothers
    exact ⟨(member.1, _) :: rest', .cons (.mk hfirst) hrest, rfl⟩

/-- The value of a column in a row. -/
def columnValue (members : Entries String Json) (column : String) : Json :=
  (Entries.get? members column).getD .null

/-- Every column has a value of its own, so one that comes up once can be changed without the
others. -/
theorem exists_columnValues {R : Json → Json → Prop} {old : String → Json} {columns : List String}
    (hdistinct : columns.Nodup) {changed : List Json}
    (h : List.Forall₂ R (columns.map old) changed) :
    ∃ new : String → Json, changed = columns.map new ∧
      ∀ column ∈ columns, R (old column) (new column) := by
  induction columns generalizing changed with
  | nil =>
    cases h
    exact ⟨old, rfl, by simp⟩
  | cons column rest ih =>
    obtain ⟨hfresh, hdistinct⟩ := List.nodup_cons.mp hdistinct
    rcases h with _ | ⟨hfirst, hothers⟩
    rename_i value others
    obtain ⟨new, rfl, hnew⟩ := ih hdistinct hothers
    have hrest : ∀ other ∈ rest, Function.update new column value other = new other := by
      intro other hother
      apply Function.update_of_ne
      rintro rfl
      exact hfresh hother
    refine ⟨Function.update new column value, ?_,
      List.forall_mem_cons.mpr ⟨?_, fun other hother => ?_⟩⟩
    · rw [List.map_cons, Function.update_self, List.map_congr_left hrest]
    · rwa [Function.update_self]
    · rw [hrest other hother]
      exact hnew other hother

/-- Members with other values in some columns. -/
theorem exists_of_columns {R : Json → Json → Prop} (hrefl : ∀ value, R value value)
    (hnull : ∀ {value}, R .null value → value = .null) {members : Entries String Json}
    {columns : List String} {new : String → Json}
    (h : ∀ column ∈ columns, R (columnValue members column) (new column)) :
    ∃ members', List.Forall₂ (Keyed R) members members' ∧
      ∀ column ∈ columns, columnValue members' column = new column := by
  induction members generalizing columns with
  | nil => exact ⟨[], .nil, fun column hcolumn => (hnull (h column hcolumn)).symm⟩
  | cons member rest ih =>
    obtain ⟨key, value⟩ := member
    have hfirst : ∀ value, columnValue ((key, value) :: rest) key = value := by
      intro value
      rw [columnValue, Entries.get?, if_pos rfl]
      rfl
    have hother : ∀ {rest : Entries String Json} {column : String} (value : Json), column ≠ key →
        columnValue ((key, value) :: rest) column = columnValue rest column := by
      intro rest column value hne
      rw [columnValue, Entries.get?, if_neg hne.symm]
      rfl
    -- the first member decides on its column, so the others are asked for the other columns only
    obtain ⟨rest', hrest, hnew⟩ := @ih (columns.filter (· ≠ key)) fun column hcolumn => by
      obtain ⟨hmem, hne⟩ := List.mem_filter.mp hcolumn
      have hvalue := h column hmem
      rwa [hother value (by simpa using hne)] at hvalue
    by_cases hkey : key ∈ columns
    · have hvalue := h key hkey
      rw [hfirst] at hvalue
      refine ⟨(key, new key) :: rest', .cons (.mk hvalue) hrest, fun column hcolumn => ?_⟩
      by_cases hne : column = key
      · subst hne
        rw [columnValue, Entries.get?, if_pos rfl]
        rfl
      · rw [hother _ hne]
        exact hnew column (List.mem_filter.mpr ⟨hcolumn, by simpa using hne⟩)
    · refine ⟨(key, value) :: rest', .cons (.mk (hrefl value)) hrest, fun column hcolumn => ?_⟩
      have hne : column ≠ key := by
        rintro rfl
        exact hkey hcolumn
      rw [hother _ hne]
      exact hnew column (List.mem_filter.mpr ⟨hcolumn, by simpa using hne⟩)

/-! ## Conflicts -/

/-- The target of a conflict names columns or a constraint, and no value. -/
theorem noAt_targetTokens {spec : ConflictSpec} {target : Sql.ConflictTarget}
    (h : AllNamed values spec.written) (hok : spec.target = .ok target) :
    NoAt (serialize (Sql.OnConflict.targetTokens target)) := by
  obtain ⟨htarget, -⟩ := List.forall_mem_append.mp h
  obtain ⟨hcolumns, hconstraint⟩ := List.forall_mem_append.mp htarget
  unfold ConflictSpec.target at hok
  split at hok
  · next first rest hfirst hnone =>
    cases hok
    have hlist : NoAt (serialize (Sql.nameList (first :: rest))) := by
      refine Sql.noAt_nameList fun name hname => ?_
      exact noAt_of_contains (hcolumns (.name name) (by simpa [hfirst] using hname))
    rw [Sql.OnConflict.targetTokens, Sql.parenthesized, Sql.serialize_append, Sql.serialize_append,
      Sql.noAt_append, Sql.noAt_append]
    exact ⟨⟨by decide, hlist⟩, by decide⟩
  · next name hnone hsome =>
    split at hok
    · cases hok
    · cases hok
      have hname : NoAt name := noAt_of_contains (hconstraint (.name name) (by simp [hsome]))
      have htext : serialize (Sql.OnConflict.targetTokens (.constraint name)) =
          "ON CONSTRAINT " ++ Sql.identifier name := by
        rw [← String.toList_inj]
        simp [Sql.OnConflict.targetTokens, Sql.Token.text, Sql.Keyword.text]
      rw [htext, Sql.noAt_append]
      exact ⟨by decide, Sql.noAt_identifier hname⟩
  · cases hok

/-- The conflict, split at its target and its action. -/
theorem serialize_conflict (target : Sql.ConflictTarget) (action : Sql.ConflictAction) :
    serialize (Sql.OnConflict.tokens ⟨target, action⟩) =
      "ON CONFLICT " ++ serialize (Sql.OnConflict.targetTokens target) ++ " DO " ++
        serialize (Sql.OnConflict.actionTokens action) := by
  rw [← String.toList_inj]
  simp [Sql.OnConflict.tokens, Sql.Token.text, Sql.Keyword.text]

theorem serialize_actionTokens (assigned : Entries String Json) (filter : Option String) :
    serialize (Sql.OnConflict.actionTokens (.doUpdate assigned filter)) =
      "UPDATE SET " ++ serialize (Sql.assignments assigned) ++
        Sql.phrase " WHERE " " AND " (Sql.present filter).toList := by
  rw [Sql.OnConflict.actionTokens, Sql.serialize_append, Sql.serialize_append, Sql.present]
  cases filter.filter (!·.isEmpty) with
  | none => rfl
  | some sql =>
    rw [← String.toList_inj]
    simp [Sql.phrase, Sql.spaced, Sql.Token.text, Sql.Keyword.text]

/-- A rule that updates has its assignments first and its condition behind them. -/
theorem lifts_rule (hcatalog : AllNamed values catalog.written) {rule : ConflictRule}
    (h : AllNamed values (ConflictSpec.ruleWritten rule)) {action : Sql.ConflictAction}
    (hok : ConflictSpec.rule catalog rule = .ok action) :
    Lifts values (serialize (Sql.OnConflict.actionTokens action)) fun numbers text =>
      ∃ rule' action', ConflictRule.Related (Json.Numbered numbers) rule rule' ∧
        ConflictSpec.rule catalog rule' = .ok action' ∧
        text = serialize (Sql.OnConflict.actionTokens action') := by
  cases rule with
  | doNothing =>
    cases hok
    refine (Lifts.ofNoAt (by decide)).mono ?_
    rintro numbers _ rfl
    exact ⟨.doNothing, .doNothing, .doNothing, rfl, rfl⟩
  | doUpdate data filter =>
    cases data with
    | nil => cases hok
    | cons member rest =>
      obtain ⟨hdata, hfilter⟩ := List.forall_mem_append.mp h
      obtain ⟨text?, htext, rfl⟩ := exists_of_map_eq_ok hok
      -- the assignments, and behind them the condition if there is one
      have hassigned := (lifts_assignments hdata).behind (show OpensApart "UPDATE SET " by decide)
      have hwhere := (lifts_conditionText hcatalog hfilter htext).present.phrase
        (show OpensApart " WHERE " by decide) (show NoAt " AND " by decide) (by decide)
      have hapart :
          startsApart (Sql.phrase " WHERE " " AND " (Sql.present text?).toList).toList = true :=
        Sql.startsApart_phrase "WHERE " _ _
      rw [serialize_actionTokens]
      refine (hassigned.append hwhere (Or.inl hapart)).mono ?_
      rintro numbers _ ⟨_, _, rfl, ⟨_, rfl, members', hmembers, rfl⟩, _, rfl, text?', rfl, filter',
        hfilter', htext'⟩
      refine ⟨.doUpdate members' filter', .doUpdate members' text?',
        .doUpdate hmembers hfilter', ?_, ?_⟩
      · cases hmembers
        rw [ConflictSpec.rule, htext']
        · rfl
        · simp
      · exact (serialize_actionTokens members' text?').symm

/-- The target is written as it is, so only the rule is numbered. -/
theorem lifts_clause (hcatalog : AllNamed values catalog.written) {spec : ConflictSpec}
    (h : AllNamed values spec.written) {conflict : Sql.OnConflict}
    (hok : spec.clause catalog = .ok conflict) :
    Lifts values (serialize conflict.tokens) fun numbers text => ∃ spec' conflict',
      ConflictSpec.Related (Json.Numbered numbers) spec spec' ∧
        spec'.clause catalog = .ok conflict' ∧
        text = serialize conflict'.tokens := by
  obtain ⟨target, htarget, hok⟩ := exists_of_bind_eq_ok hok
  obtain ⟨action, haction, hok⟩ := exists_of_bind_eq_ok hok
  cases hok
  have hon : NoAt ("ON CONFLICT " ++ serialize (Sql.OnConflict.targetTokens target)) := by
    rw [Sql.noAt_append]
    exact ⟨by decide, noAt_targetTokens h htarget⟩
  have hlead := hon.opensApart (show OpensApart " DO " by decide) (by simp)
  have hrule := lifts_rule hcatalog (List.forall_mem_append.mp h).2 haction
  rw [serialize_conflict]
  refine (hrule.behind hlead).mono ?_
  rintro numbers _ ⟨_, rfl, rule', action', hrelated, haction', rfl⟩
  refine ⟨{ spec with action := rule' }, ⟨target, action'⟩, .mk hrelated, ?_, ?_⟩
  · have htarget' : ConflictSpec.target { spec with action := rule' } = .ok target := htarget
    rw [ConflictSpec.clause, htarget', haction']
    rfl
  · exact (serialize_conflict target action').symm

/-! ## Inserts -/

/-- The ON CONFLICT clause, if there is one. -/
def conflictTexts (conflict? : Option Sql.OnConflict) : List String :=
  conflict?.toList.map fun conflict => serialize conflict.tokens

/-- A blank in front of every text is one at the start and one behind every comma. -/
theorem intercalate_spaced (texts : List String) (first : String) :
    ",".intercalate ((first :: texts).map (" " ++ ·)) =
      " " ++ ", ".intercalate (first :: texts) := by
  induction texts generalizing first with
  | nil => simp
  | cons next rest ih =>
    rw [List.map_cons, List.map_cons, String.intercalate_cons_cons, ← List.map_cons, ih,
      String.intercalate_cons_cons, ← String.toList_inj]
    simp

/-- The rows of an INSERT stand in parentheses with commas among them. -/
theorem serialize_rowTokens (row : List Json) (rows : List (List Json)) :
    serialize (Sql.Insert.rowTokens (row :: rows)) =
      " " ++ ", ".intercalate ((row :: rows).map Sql.literalList) := by
  have hrow : ∀ row : List Json, serialize (.space :: Sql.parenthesized (Sql.valueList row)) =
      " " ++ Sql.literalList row := by
    intro row
    have hliterals : Sql.literals row = row.map Sql.literal := by
      induction row with
      | nil => rfl
      | cons value rest ih => rw [Sql.literals, ih, List.map_cons]
    have hlist : serialize (Sql.valueList row) = ", ".intercalate (Sql.literals row) := by
      rw [Sql.valueList, Sql.commaSeparated, Sql.serialize_intercalate, List.map_map, hliterals]
      rfl
    rw [Sql.literalList, ← hlist, ← String.toList_inj]
    simp [Sql.parenthesized, Sql.Token.text]
  have hrows :
      (row :: rows).map (fun row => serialize (.space :: Sql.parenthesized (Sql.valueList row))) =
      ((row :: rows).map Sql.literalList).map (" " ++ ·) := by
    rw [List.map_map]
    exact List.map_congr_left fun row _ => hrow row
  rw [Sql.Insert.rowTokens, Sql.serialize_intercalate, List.map_map]
  refine (congrArg _ hrows).trans ?_
  rw [List.map_cons]
  exact intercalate_spaced _ _

/-- An INSERT, split at its rows and at its conflict, which are what values stand in. -/
theorem insert_toSql (table : String) (columns : List String) (rows : List (List Json))
    (conflict? : Option Sql.OnConflict) (returning : List String) :
    Sql.Insert.toSql ⟨table, columns, rows, conflict?, returning⟩ =
      Sql.Insert.toSql ⟨table, columns, [], none, []⟩ ++
        Sql.phrase " VALUES " ", " (rows.map Sql.literalList) ++
        Sql.phrase " " " " (conflictTexts conflict?) ++
        serialize (Sql.namesClause .returning returning) := by
  have hvalues : serialize (if rows.isEmpty then []
      else Sql.spaced [.keyword .values] ++ Sql.Insert.rowTokens rows) =
      Sql.phrase " VALUES " ", " (rows.map Sql.literalList) := by
    cases rows with
    | nil => rfl
    | cons row rest =>
      rw [List.isEmpty_cons, if_neg (by decide), Sql.serialize_append,
        serialize_rowTokens, Sql.phrase,
        List.map_cons, List.isEmpty_cons, if_neg (by decide), ← String.append_assoc]
      rfl
  have hnone : serialize (Sql.namesClause .returning []) = "" := rfl
  simp only [Sql.Insert.toSql, Sql.Insert.tokens, Sql.serialize_append, hvalues, hnone]
  cases conflict? with
  | none =>
    have hconflict : Sql.phrase " " " " (conflictTexts none) = "" := rfl
    simp [hconflict]
  | some conflict =>
    have hconflict : Sql.phrase " " " " (conflictTexts (some conflict)) =
        " " ++ serialize conflict.tokens := by
      rw [conflictTexts, Option.toList_some, List.map_singleton, Sql.phrase, List.isEmpty_cons,
        if_neg (by decide), String.intercalate_singleton]
    simp [hconflict, Sql.Token.text]

/-- What surrounds the rows of an insert has no at signs, but for its conflict. -/
theorem named_frame {params : InsertParams} (h : AllNamed values params.frameWritten) :
    NoAt params.table ∧ (∀ column ∈ params.returning, NoAt column) ∧
      (∀ spec ∈ params.onConflict, AllNamed values spec.written) ∧
      AllNamed values params.relations.written := by
  obtain ⟨h, hcatalog⟩ := List.forall_mem_append.mp h
  obtain ⟨h, hconflict⟩ := List.forall_mem_append.mp h
  obtain ⟨htable, hreturning⟩ := List.forall_mem_append.mp h
  refine ⟨noAt_of_name htable, noAt_of_names hreturning, fun spec hspec => ?_, hcatalog⟩
  exact List.forall_mem_flatMap.mp hconflict spec (by simp [Option.mem_def.mp hspec])

/-- Table and columns of an INSERT have no value in them. -/
theorem noAt_insertHead {table : String} (htable : NoAt table) {columns : List String}
    (hcolumns : ∀ column ∈ columns, NoAt column) :
    NoAt (Sql.Insert.toSql ⟨table, columns, [], none, []⟩) := by
  have hlist : NoAt (serialize (if columns.isEmpty then []
      else .space :: Sql.parenthesized (Sql.nameList columns))) := by
    split
    · decide
    · rw [Sql.serialize_cons, Sql.parenthesized, Sql.serialize_append, Sql.serialize_append]
      simp only [Sql.noAt_append]
      exact ⟨by decide, ⟨by decide, Sql.noAt_nameList hcolumns⟩, by decide⟩
  have hinto : serialize [.keyword .insert, .space, .keyword .into, .space, .ident table] =
      "INSERT INTO " ++ Sql.identifier table := by
    rw [← String.toList_inj]
    simp [Sql.Token.text, Sql.Keyword.text]
  simp only [Sql.Insert.toSql, Sql.Insert.tokens, Sql.serialize_append, hinto, Sql.noAt_append]
  exact ⟨⟨⟨⟨⟨by decide, Sql.noAt_identifier htable⟩, hlist⟩, by decide⟩, by decide⟩, by decide⟩

/-- The conflict of an INSERT, if there is one, with numbers for the values in it. -/
theorem lifts_conflict {params : InsertParams}
    (hcatalog : AllNamed values params.relations.written)
    (hspec : ∀ spec ∈ params.onConflict, AllNamed values spec.written)
    {conflict? : Option Sql.OnConflict}
    (hok : params.onConflict.mapM (ConflictSpec.clause params.relations) = .ok conflict?) :
    LiftsAll values (conflictTexts conflict?) fun numbers texts => ∃ conflict' conflict?',
      Option.Rel (ConflictSpec.Related (Json.Numbered numbers)) params.onConflict conflict' ∧
        conflict'.mapM (ConflictSpec.clause params.relations) = .ok conflict?' ∧
        texts = conflictTexts conflict?' := by
  cases hparams : params.onConflict with
  | none =>
    rw [hparams] at hok
    cases hok
    refine LiftsAll.nil.mono ?_
    rintro numbers _ rfl
    exact ⟨none, none, .none, rfl, rfl⟩
  | some spec =>
    rw [hparams, Option.mapM_some] at hok
    obtain ⟨conflict, hclause, rfl⟩ := exists_of_map_eq_ok hok
    refine (LiftsAll.single (lifts_clause hcatalog (hspec spec hparams) hclause)).mono ?_
    rintro numbers _ ⟨_, rfl, spec', conflict', hrelated, hclause', rfl⟩
    refine ⟨some spec', some conflict', .some hrelated, ?_, rfl⟩
    rw [Option.mapM_some, hclause']
    rfl

/-- An INSERT of rows with named values. -/
theorem lifts_insert {params : InsertParams} (h : AllNamed values params.frameWritten)
    {columns : List String} (hcolumns : ∀ column ∈ columns, NoAt column) {rows : List (List Json)}
    (hrows : ∀ row ∈ rows, Json.itemsAreNamed values row = true) {text : String}
    (hok : params.statement columns rows = .ok text) :
    Lifts values text fun numbers text' => ∃ rows' conflict',
      List.Forall₂ (List.Forall₂ (Json.Numbered numbers)) rows rows' ∧
      Option.Rel (ConflictSpec.Related (Json.Numbered numbers)) params.onConflict conflict' ∧
      ∀ data, InsertParams.statement { params with data := data, onConflict := conflict' }
        columns rows' =
        .ok text' := by
  obtain ⟨htable, hreturning, hspec, hcatalog⟩ := named_frame h
  obtain ⟨conflict?, hconflict, hok⟩ := exists_of_bind_eq_ok hok
  rw [← Except.ok.inj hok]
  clear hok
  have hclause := lifts_conflict hcatalog hspec hconflict
  rw [insert_toSql]
  have hvalues := (lifts_rows hrows).phrase (show OpensApart " VALUES " by decide)
    (show NoAt ", " by decide) (by decide)
  have hconflicts :=
    hclause.phrase (show OpensApart " " by decide) (show NoAt " " by decide) (by decide)
  have hlift := (((Lifts.ofNoAt (noAt_insertHead htable hcolumns)).append hvalues
    (Or.inl (Sql.startsApart_phrase "VALUES " _ _))).append hconflicts
    (Or.inl (Sql.startsApart_phrase "" _ _))).before
    (Sql.closesApart_namesClause .returning hreturning)
  refine hlift.mono ?_
  rintro numbers _
    ⟨_, rfl, _, _, rfl, ⟨_, _, rfl, rfl, _, rfl, rows', hrows', rfl⟩, _, rfl, conflict',
    conflict?', hconflict', hclause', rfl⟩
  refine ⟨rows', conflict', hrows', hconflict', fun data => ?_⟩
  rw [← insert_toSql, InsertParams.statement]
  dsimp only
  rw [hclause']
  rfl

end DescriptorSql
