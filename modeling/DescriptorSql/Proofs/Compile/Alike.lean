import DescriptorSql.Proofs.Compile.Agreement
import DescriptorSql.Proofs.Descriptor.Plain

/-!
# `Proofs/Compile/Alike.lean` — the compiler does not look at data

A plain descriptor and the same descriptor without its data compile alike: both fail with the same
error, or the two conditions differ only inside literals. On the way it is said of every text the
compiler writes how much of the language stands in it outside of parentheses. A clause of a
condition has ANDs in it, but no OR; only a group of branches has, and a group stands in
parentheses. The conditions of a query therefore never mix with what is put behind them.
-/

set_option autoImplicit false

namespace DescriptorSql

open Sql (Alike Chunk Grade isPlainName)

abbrev AlikeClauses : List String → List String → Prop := List.Forall₂ (Alike .condition)

/-! ## Clauses -/

/-- Clauses with ANDs in them but no OR stay a condition when they are joined by AND. -/
theorem alike_join {first second : List String} (h : AlikeClauses first second) :
    Alike .condition (Connective.and.join first) (Connective.and.join second) :=
  Alike.intercalate h (by decide)

/-- Joined by AND or OR, closed clauses are closed, so they have to be put in parentheses. -/
theorem alike_closed_join (connective : Connective) {first second : List String}
    (h : List.Forall₂ (Alike .closed) first second) :
    Alike .closed (connective.join first) (connective.join second) := by
  cases connective
  · exact Alike.intercalate h (by decide)
  · exact Alike.intercalate h (by decide)

/-- Texts that are alike are empty together, so dropping the empty ones drops the same ones. -/
theorem alike_shown {grade : Grade} {first second : List String}
    (h : List.Forall₂ (Alike grade) first second) :
    List.Forall₂ (Alike grade) (first.filter (!·.isEmpty)) (second.filter (!·.isEmpty)) := by
  induction h with
  | nil => exact .nil
  | cons hab hrest ih =>
    rw [List.filter_cons, List.filter_cons, hab.isEmpty_eq]
    split
    · exact .cons hab ih
    · exact ih

/-- A group stands in parentheses, which makes a condition of what has an OR in it. -/
theorem alike_groupClauses (connective : Connective) {first second : List String}
    (h : List.Forall₂ (Alike .closed) first second) :
    AlikeClauses (groupClauses connective first) (groupClauses connective second) := by
  have hshown := alike_shown h
  unfold groupClauses
  dsimp only
  revert hshown
  generalize first.filter (!·.isEmpty) = as, second.filter (!·.isEmpty) = bs
  rintro (_ | ⟨hab, hrest⟩)
  · exact .nil
  · exact .cons ((alike_closed_join connective (.cons hab hrest)).parenthesized.mono _) .nil

/-- The opening parenthesis behind NOT is split off it, since the two are read as two items. -/
theorem negationText_eq (text : String) : "NOT(" ++ text ++ ")" = "NOT" ++ "(" ++ text ++ ")" := by
  rw [← String.toList_inj]
  simp

/-- A negation puts what it negates in parentheses. -/
theorem alike_negationClauses {a b : String} (h : Alike .condition a b) :
    AlikeClauses (negationClauses a) (negationClauses b) := by
  unfold negationClauses
  rw [h.isEmpty_eq]
  split
  · exact .nil
  · have hcall :=
      Alike.call (.ofAccepts (show Grade.inert.accepts "NOT" = true by decide)) h.toClosed
    rw [negationText_eq, negationText_eq]
    exact .cons (hcall.mono _) .nil

/-- The tests for rows are joined by AND inside one pair of parentheses. -/
theorem alike_existenceClauses {first second : List String}
    (h : List.Forall₂ (Alike .inert) first second) :
    AlikeClauses (existenceClauses first) (existenceClauses second) := by
  unfold existenceClauses
  cases h with
  | nil => exact .nil
  | cons hab hrest =>
    have htests :=
      List.Forall₂.cons (hab.mono .condition) (hrest.imp fun _ _ h => h.mono .condition)
    exact .cons (alike_join htests) .nil

/-! ## Comparisons -/

/-- A comparison that is not a range leaves its right side as it is, and is as inert as that is. -/
theorem alike_comparisonText {field : String} (hfield : isPlainName field = true)
    {operator : Operator} (hrange : operator.isRange = false) {a b : String}
    (h : Alike .inert a b) :
    Alike .inert (comparisonText field operator a) (comparisonText field operator b) := by
  have hoperator : Alike .inert operator.sql operator.sql := by
    cases operator with
    | between | notBetween => cases hrange
    | _ => exact .ofAccepts (by decide)
  have hspace := Grade.inert.separates_space
  exact ((Sql.alike_identifier hfield).glue hoperator hspace).glue h hspace

/-- The texts are alike and part of a condition, and an AND is awaited for a BETWEEN before and
after them, or is not. -/
def Spans (before after : Bool) (a b : String) : Prop :=
  ∃ skeleton, (∀ item ∈ skeleton, item.isOneOf Grade.condition.reserved = false) ∧
    Sql.awaitsAnd before skeleton = after ∧ Sql.Reads a skeleton ∧ Sql.Reads b skeleton

/-- A text that spans as `Spans` says. -/
def spansText (before after : Bool) (text : String) : Bool :=
  (Sql.items? text).any fun items =>
    items.all (!·.isOneOf Grade.condition.reserved) && Sql.awaitsAnd before items == after

namespace Spans

variable {first second third fourth : Bool} {a b c d text : String}

/-- An inert text has no BETWEEN and no AND in it, so an AND that is awaited before it still is
behind it. -/
theorem ofInert (h : Alike .inert a b) (awaiting : Bool) : Spans awaiting awaiting a b :=
  let ⟨skeleton, hallows, ha, hb⟩ := h
  ⟨skeleton, hallows.toCondition.1, hallows.awaitsAnd awaiting, ha, hb⟩

/-- Of a text that is written out, how it spans is computed. -/
theorem ofText (h : spansText first second text = true) : Spans first second text text := by
  unfold spansText at h
  cases hitems : Sql.items? text with
  | none => simp [hitems] at h
  | some items =>
    simp only [hitems, Option.any_some, Bool.and_eq_true, List.all_eq_true, Bool.not_eq_true',
      beq_iff_eq] at h
    have hreads : Sql.Reads text (Sql.holes items) := ⟨items, hitems, rfl⟩
    refine ⟨Sql.holes items, ?_, by rw [Sql.awaitsAnd_holes, h.2], hreads, hreads⟩
    rw [Sql.holes_eq_map]
    intro item hitem
    obtain ⟨origin, horigin, rfl⟩ := List.mem_map.mp hitem
    rw [Sql.isOneOf_hole]
    exact h.1 origin horigin

/-- Where no AND is awaited at either end, the texts are a condition. -/
theorem alike (h : Spans false false a b) : Alike .condition a b :=
  let ⟨skeleton, hwords, hawaits, ha, hb⟩ := h
  ⟨skeleton, ⟨hwords, fun _ => hawaits⟩, ha, hb⟩

/-- Spans follow upon one another, with a text between them that neither runs into. -/
theorem glue (h : Spans first second a b) (htext : Spans second third text text)
    (h' : Spans third fourth c d) (hglue : Sql.isGlue text = true) :
    Spans first fourth (a ++ text ++ c) (b ++ text ++ d) := by
  obtain ⟨sa, hsa, hawaitsa, ha, hb⟩ := h
  obtain ⟨st, hst, hawaitst, ht, -⟩ := htext
  obtain ⟨sc, hsc, hawaitsc, hc, hd⟩ := h'
  refine ⟨sa ++ (st ++ sc), ?_, ?_, ?_, ?_⟩
  · simp only [List.mem_append]
    rintro item (h | h | h)
    · exact hsa item h
    · exact hst item h
    · exact hsc item h
  · rw [Sql.awaitsAnd_append, Sql.awaitsAnd_append, hawaitsa, hawaitst, hawaitsc]
  · rw [String.append_assoc]
    exact ha.append (ht.append hc (.behind hglue)) (.before hglue)
  · rw [String.append_assoc]
    exact hb.append (ht.append hd (.behind hglue)) (.before hglue)

end Spans

/-- The AND between two bounds is the one that BETWEEN waits for. -/
theorem alike_rangeText {field : String} (hfield : isPlainName field = true)
    {operator : Operator} (hrange : operator.isRange = true) {low low' high high' : String}
    (hlow : Alike .inert low low') (hhigh : Alike .inert high high') :
    Alike .condition (comparisonText field operator (low ++ " AND " ++ high))
      (comparisonText field operator (low' ++ " AND " ++ high')) := by
  have hoperator : Spans false true (" " ++ operator.sql ++ " ") (" " ++ operator.sql ++ " ") ∧
      Sql.isGlue (" " ++ operator.sql ++ " ") = true := by
    cases operator with
    | between | notBetween => exact ⟨.ofText (by decide), by decide⟩
    | _ => cases hrange
  have hand : Spans true false " AND " " AND " := .ofText (by decide)
  have hbounds := (Spans.ofInert hlow true).glue hand (.ofInert hhigh false) (by decide)
  have htext :=
    (Spans.ofInert (Sql.alike_identifier hfield) false).glue hoperator.1 hbounds hoperator.2
  simpa only [comparisonText, String.append_assoc] using htext.alike

/-- Taking the data out of an operand changes its values, and not how many there are. -/
theorem values?_withoutData (operand : Operand) :
    (operand.mapValues Json.withoutData).values? =
      operand.values?.map (·.map Json.withoutData) := by
  cases operand with
  | value value =>
    cases value with
    | array items =>
      rw [Operand.mapValues, Json.withoutData, Operand.values?, Json.itemsWithoutData_eq_map]
      rfl
    | string s =>
      rw [Operand.mapValues, Json.withoutData]
      split <;> rfl
    | _ => rfl
  | _ => rfl

/-- The values of a plain operand are plain, and so is the column they are compared with. -/
theorem plain_values {field : String} {operator : Operator} {operand : Operand}
    (h : AllPlain (Harvest.written.operand field operator operand)) {values : List Json}
    (hvalues : operand.values? = some values) :
    isPlainName field = true ∧ Json.itemsArePlain values = true := by
  cases operand with
  | value value =>
    cases value <;> cases hvalues
    exact ⟨(allPlain_append.mp h).1 |> allPlain_name.mp,
      (allPlain_append.mp h).2 |> allPlain_value.mp⟩
  | list items =>
    cases hvalues
    exact ⟨(allPlain_append.mp h).1 |> allPlain_name.mp,
      (allPlain_append.mp h).2 |> allPlain_value.mp⟩
  | _ => cases hvalues

/-- A range takes two values, and their number is the same without data. So a range fails with and
without data alike. -/
theorem agree_rangeClauses {field : String} {operator : Operator} (hrange : operator.isRange = true)
    {operand : Operand} (h : AllPlain (Harvest.written.operand field operator operand)) :
    Agree AlikeClauses (rangeClauses field operator (operand.mapValues Json.withoutData))
      (rangeClauses field operator operand) := by
  unfold rangeClauses
  rw [values?_withoutData]
  cases hvalues : operand.values? with
  | none => exact rfl
  | some values =>
    obtain ⟨hfield, hplain⟩ := plain_values h hvalues
    match values with
    | [] | [_] | _ :: _ :: _ :: _ => exact rfl
    | [low, high] =>
      rw [Json.itemsArePlain_iff] at hplain
      exact .cons (alike_rangeText hfield hrange (Sql.alike_literal (hplain low (by simp)))
        (Sql.alike_literal (hplain high (by simp)))) .nil

/-! ## Statements -/

/-- Expansions with inert joins, and with conditions that differ inside literals only. -/
structure AlikeExpansion (first second : Expansion) : Prop where
  joins : Chunk .inert first.joins second.joins
  filter : Option.Rel (Alike .condition) first.filter second.filter
  having : Option.Rel (Alike .condition) first.having second.having

theorem AlikeExpansion.empty : AlikeExpansion Expansion.empty Expansion.empty :=
  ⟨Chunk.nil, .none, .none⟩

/-- Whatever is alike to something is alike to itself. -/
theorem AlikeExpansion.right {first second : Expansion} (h : AlikeExpansion first second) :
    AlikeExpansion second second := by
  have hcondition : ∀ {a b : Option String}, Option.Rel (Alike .condition) a b →
      Option.Rel (Alike .condition) b b := by
    rintro _ _ (⟨h⟩ | _)
    · exact .some h.right
    · exact .none
  exact ⟨⟨h.joins.alike.right, h.joins.right, h.joins.right⟩, hcondition h.filter,
    hcondition h.having⟩

/-- The bodies are the same but for their conditions. -/
def SameClauses (first second : QueryBody) : Prop :=
  first.groupBy = second.groupBy ∧ first.orderBy = second.orderBy ∧ first.limit = second.limit ∧
    first.offset = second.offset

/-- Changing the values of a body leaves its clauses other than the conditions alone. -/
theorem sameClauses_mapValues (f : Json → Json) (body : QueryBody) :
    SameClauses (body.mapValues f) body := by
  obtain ⟨select, filter, groupBy, having, orderBy, limit, offset, left, right, inner, full⟩ := body
  exact ⟨rfl, rfl, rfl, rfl⟩

theorem alike_head {columns source : String} (hcolumns : Alike .inert columns columns)
    (hsource : Alike .inert source source) :
    Alike .inert ("SELECT " ++ columns ++ " FROM " ++ source)
      ("SELECT " ++ columns ++ " FROM " ++ source) := by
  have hselect : Grade.inert.accepts "SELECT " = true := by decide
  exact (hcolumns.behind hselect (by decide)).glue hsource (by decide)

/-- Of a statement, only its conditions and joins depend on the data. The rest is written from the
body's own clauses, which are the same. -/
theorem alike_selectStatement {columns source : String} {body body' : QueryBody}
    {expansion expansion' : Expansion} {append : Sql.Append}
    (hcolumns : Alike .inert columns columns) (hsource : Alike .inert source source)
    (hsame : SameClauses body' body) (hbody : PlainBody body)
    (hexpansion : AlikeExpansion expansion' expansion)
    (happend : Option.Rel (Alike .inert) append.filter append.filter) (hjoin : append.join = none) :
    Alike .closed (selectStatement columns source body' expansion' append)
      (selectStatement columns source body expansion append) := by
  obtain ⟨hgroupBy, horderBy, hlimit, hoffset⟩ := hsame
  exact Sql.Clauses.alike_toSql (alike_head hcolumns hsource).toClosed hexpansion.joins.toClosed
    hexpansion.filter hexpansion.having happend (by rw [hjoin]; rfl)
    ⟨hgroupBy, horderBy, hlimit, hoffset, rfl⟩
    ⟨hbody.groupBy, hbody.orderBy, hbody.limit, hbody.offset, by simp⟩

/-! ## Joins -/

theorem joinEntries_eq_map (f : Json → Json) (joins : List (String × JoinQuery)) :
    JoinQuery.mapEntries f joins =
      joins.map fun (name, join) => (name, ⟨join.select, Predicate.mapFilter f join.filter⟩) := by
  induction joins with
  | nil => rfl
  | cons entry rest ih =>
    obtain ⟨name, select, filter⟩ := entry
    rw [JoinQuery.mapEntries, ih, List.map_cons]

/-- The values of a body are in the conditions of its joins as well, and changing them leaves kind,
name and columns of a join alone. -/
theorem joins_mapValues (f : Json → Json) (body : QueryBody) :
    (body.mapValues f).joins = body.joins.map fun (kind, name, join) =>
      (kind, name, ⟨join.select, Predicate.mapFilter f join.filter⟩) := by
  obtain ⟨select, filter, groupBy, having, orderBy, limit, offset, left, right, inner, full⟩ := body
  simp only [QueryBody.mapValues, QueryBody.joins, joinEntries_eq_map, List.map_append,
    List.map_map]
  rfl

/-- What a body selects does not depend on its values. -/
theorem outputColumns_mapValues (f : Json → Json) (body : QueryBody) (select : Columns)
    (nested : List String) :
    (body.mapValues f).outputColumns select nested = body.outputColumns select nested := by
  simp only [QueryBody.outputColumns, joins_mapValues, List.flatMap_map]

/-- The text of a join is written from its kind and its relation. Its condition is not in it, so the
data is not either. -/
theorem joinsText_mapValues (f : Json → Json) (catalog : Catalog) (body : QueryBody) :
    joinsText catalog (body.mapValues f).joins = joinsText catalog body.joins := by
  have hmapM : ∀ joins : List (JoinKind × String × JoinQuery),
      ((joins.map fun (kind, name, join) => (kind, name,
          (⟨join.select, Predicate.mapFilter f join.filter⟩ : JoinQuery))).mapM
        fun (kind, name, _) => do return Sql.relationJoin kind (← catalog.resolve name)) =
      joins.mapM fun (kind, name, _) =>
        do return Sql.relationJoin kind (← catalog.resolve name) := by
    intro joins
    induction joins with
    | nil => rfl
    | cons join rest ih => rw [List.map_cons, List.mapM_cons, List.mapM_cons, ih]
  rw [joinsText, joinsText, joins_mapValues, hmapM]

variable {catalog : Catalog}

theorem chunk_join {grade : Grade} {texts : List String}
    (h : ∀ text ∈ texts, Chunk grade text text) :
    Chunk grade (String.join texts) (String.join texts) := by
  induction texts with
  | nil => exact Chunk.nil
  | cons text rest ih =>
    rw [List.forall_mem_cons] at h
    rw [String.join_cons]
    exact h.1.append (ih h.2)

/-- The joins of a plain catalog are inert: the words in them are none that opens a clause behind
FROM. -/
theorem chunk_joinsText (hcatalog : AllPlain catalog.written)
    {joins : List (JoinKind × String × JoinQuery)} {text : String}
    (hok : joinsText catalog joins = .ok text) : Chunk .inert text text := by
  obtain ⟨texts, rfl, hjoins⟩ := exists_of_joinsText hok
  refine chunk_join fun text htext => ?_
  obtain ⟨kind, name, relation, hrelation, rfl⟩ := hjoins text htext
  exact (catalog.plain_of_resolve hcatalog hrelation).chunk_relationJoin kind

/-! ## Subqueries -/

/-- Source and appended condition of a place are inert, and it is closed by a parenthesis alone. -/
structure PlainPlace (place : SubQueryPlace) : Prop where
  source : Alike .inert place.source place.source
  filter : Option.Rel (Alike .inert) place.append.filter place.append.filter
  join : place.append.join = none
  closing : place.closing = ")" ∨ place.closing = " )"

/-- A plain table of the query's own, or a relation of a plain catalog, gives a plain place. -/
theorem PlainPlace.of (hcatalog : AllPlain catalog.written) {kind : SubQueryKind} {name : String}
    {table? : Option String} {body : QueryBody}
    (h : AllPlain (Harvest.written.place kind name table? body)) {place : SubQueryPlace}
    (hok : subQueryPlace catalog name table? = .ok place) : PlainPlace place := by
  cases table? with
  | some table =>
    cases hok
    exact ⟨Sql.alike_tableRef (allPlain_name.mp h) (by simp), .none, rfl, Or.inl rfl⟩
  | none =>
    obtain ⟨relation, hrelation, hok⟩ := exists_of_bind_eq_ok hok
    cases hok
    have hplain := catalog.plain_of_resolve hcatalog hrelation
    refine ⟨hplain.alike_relationSource, .some hplain.alike_correlation, rfl, ?_⟩
    dsimp only
    split
    · exact Or.inr rfl
    · exact Or.inl rfl

theorem alike_exists :
    Alike .inert SubQueryKind.existence.keyword SubQueryKind.existence.keyword :=
  .ofAccepts (by decide)

theorem alike_rows {keyword : String} (h : Alike .inert keyword keyword) :
    Alike .inert (SubQueryKind.rows keyword).keyword (SubQueryKind.rows keyword).keyword := h

theorem PlainBody.rowsColumns {body : QueryBody} (h : PlainBody body) (kind : SubQueryKind) :
    PlainColumns (body.outputColumns (kind.select body.select) []) := by
  refine h.outputColumns ?_ (by simp)
  cases kind with
  | existence => exact .of (show AllPlain (Harvest.written.columns [("1", .reuse)]) by decide)
  | rows keyword => exact h.select

/-- What a subquery has in its parentheses, with its own values and with changed ones. -/
theorem exists_subQueryText (kind : SubQueryKind) {place : SubQueryPlace}
    (hplace : PlainPlace place) {body : QueryBody} (hbody : PlainBody body)
    {expansion expansion' : Expansion} (hexpansion : AlikeExpansion expansion' expansion)
    (f : Json → Json) :
    ∃ inner inner', Alike .closed inner' inner ∧
      subQueryText kind place body expansion = kind.keyword ++ "(" ++ inner ++ ")" ∧
      subQueryText kind place (body.mapValues f) expansion' =
        kind.keyword ++ "(" ++ inner' ++ ")" := by
  have hsame : (body.mapValues f).select = body.select := by
    obtain ⟨select, filter, groupBy, having, orderBy, limit, offset, left, right, inner, full⟩ :=
      body
    rfl
  have hstatement := alike_selectStatement (hbody.rowsColumns kind).alike_selectList hplace.source
    (sameClauses_mapValues f body) hbody hexpansion hplace.filter hplace.join
  unfold subQueryText
  dsimp only
  rw [outputColumns_mapValues, hsame]
  rcases hplace.closing with hclosing | hclosing
  · rw [hclosing]
    exact ⟨_, _, hstatement, rfl, rfl⟩
  · have hspace : Chunk .closed " " " " := by
      simpa using Chunk.space (.ofAccepts (show Grade.closed.accepts "" = true by decide))
    rw [hclosing, show " )" = " " ++ ")" by decide]
    exact ⟨_, _, hstatement.chunk hspace, by simp only [String.append_assoc],
      by simp only [String.append_assoc]⟩

/-- A subquery is inert whatever is in it, since it stands in parentheses behind its keyword. -/
theorem alike_subQueryText {kind : SubQueryKind} (hkind : Alike .inert kind.keyword kind.keyword)
    {place : SubQueryPlace} (hplace : PlainPlace place) {body : QueryBody} (hbody : PlainBody body)
    {expansion expansion' : Expansion} (hexpansion : AlikeExpansion expansion' expansion)
    (f : Json → Json) :
    Alike .inert (subQueryText kind place (body.mapValues f) expansion')
      (subQueryText kind place body expansion) := by
  obtain ⟨inner, inner', halike, htext, htext'⟩ :=
    exists_subQueryText kind hplace hbody hexpansion f
  rw [htext, htext']
  exact Alike.call hkind halike

/-! ## Predicates and queries -/

/-- What is plain as a whole is plain in its clauses and in each of its conditions. -/
theorem allPlain_body {body : QueryBody} (h : AllPlain (Harvest.written.body body)) :
    PlainBody body ∧
      AllPlain ((Harvest.written.filter body.filter).flatMap Harvest.all) ∧
      AllPlain ((Harvest.written.joinFilters body.leftJoin).flatMap Harvest.all) ∧
      AllPlain ((Harvest.written.joinFilters body.rightJoin).flatMap Harvest.all) ∧
      AllPlain ((Harvest.written.joinFilters body.innerJoin).flatMap Harvest.all) ∧
      AllPlain ((Harvest.written.joinFilters body.fullJoin).flatMap Harvest.all) ∧
      AllPlain ((Harvest.written.filter body.having).flatMap Harvest.all) := by
  obtain ⟨hclauses, hconditions⟩ := Harvest.forall_mem_body (fun _ => rfl) h
  exact ⟨.of hclauses, hconditions⟩

abbrev AlikeFilters : List (Entries String Clausal) → List (Entries String Clausal) → Prop :=
  List.Forall₂ (Entries.Related (Agree AlikeClauses))

/-- Laying conditions over one another looks at columns only, which are the same without data. -/
theorem agree_overlay {first second : List (Entries String Clausal)}
    (h : AlikeFilters first second) :
    Agree (Option.Rel (Alike .condition)) (overlayText first) (overlayText second) :=
  agree_overlayText h .none fun hclauses => .some (alike_join hclauses)

theorem comparisonText_equals (field right : String) :
    comparisonText field .equals right = Sql.identifier field ++ " = " ++ right := by
  simp [comparisonText, Operator.sql, String.append_assoc]

/-- An operator that takes a list takes no range. -/
theorem isRange_of_isMembership {operator : Operator} (h : operator.isMembership = true) :
    operator.isRange = false := by
  cases operator <;> first | rfl | cases h

/-- IN and NOT IN are not words of the language that end a condition. -/
theorem alike_membership {operator : Operator} (h : operator.isMembership = true) :
    Alike .inert operator.sql operator.sql := by
  cases operator with
  | isIn | notIn => exact .ofAccepts (by decide)
  | _ => cases h

theorem alike_quantifier (quantifier : Quantifier) :
    Alike .inert quantifier.sql quantifier.sql := by
  cases quantifier <;> exact .ofAccepts (by decide)

/-- A value without its data is of the same kind, so it is refused or taken alike. -/
theorem agree_valueClauses {field : String} {operator : Operator} {value : Json}
    (h : AllPlain (Harvest.written.operand field operator (.value value)))
    (hfield : isPlainName field = true) (hvalue : value.isPlain = true) :
    Agree AlikeClauses (operandClauses catalog field operator (.value value.withoutData))
      (operandClauses catalog field operator (.value value)) := by
  unfold operandClauses
  split
  · next hmember =>
    -- IN and NOT IN take a list, and any other value is refused, with data or without
    cases value with
    | array items =>
      rw [Json.withoutData]
      exact .cons ((alike_comparisonText hfield (isRange_of_isMembership hmember)
        (Sql.alike_literal hvalue)).mono _) .nil
    | string s =>
      rw [Json.withoutData]
      by_cases hdata : Sql.isData s = true
      · rw [if_pos hdata]
        exact rfl
      · rw [if_neg hdata]
        exact rfl
    | _ => exact rfl
  split
  · next hrange => exact agree_rangeClauses hrange h
  · next hrange =>
    exact .cons ((alike_comparisonText hfield (Bool.eq_false_iff.mpr hrange)
      (Sql.alike_literal hvalue)).mono _) .nil

/-- A list keeps its length without data, and a list of values is written in parentheses. -/
theorem agree_listClauses {field : String} {operator : Operator} {items : List Json}
    (h : AllPlain (Harvest.written.operand field operator (.list items)))
    (hfield : isPlainName field = true) (hitems : (Json.array items).isPlain = true) :
    Agree AlikeClauses (operandClauses catalog field operator (.list (items.map Json.withoutData)))
      (operandClauses catalog field operator (.list items)) := by
  have hlist :
      Alike .inert (Sql.literalList (items.map Json.withoutData)) (Sql.literalList items) := by
    have halike := Sql.alike_literal hitems
    rw [Json.withoutData] at halike
    rw [← Json.itemsWithoutData_eq_map, Sql.literalList_eq, Sql.literalList_eq]
    exact halike
  rw [operandClauses, operandClauses]
  split
  · next hmember =>
    exact .cons ((alike_comparisonText hfield (isRange_of_isMembership hmember) hlist).mono _) .nil
  split
  · next hrange => exact agree_rangeClauses hrange h
  · next hrange =>
    exact .cons ((alike_comparisonText hfield (Bool.eq_false_iff.mpr hrange) hlist).mono _) .nil

mutual

/-- The induction follows the compiler, with the writings of a part taken out of those of the whole
in each case. What is proved of a part is how much of the language may stand in its texts: a
condition for clauses, closed for branches, inert for subqueries. -/
theorem agree_entryClauses (hcatalog : AllPlain catalog.written) :
    ∀ {entries : List (String × Condition)},
      AllPlain (Harvest.all (Harvest.written.entries entries)) →
      Entries.Related (Agree AlikeClauses)
        (entryClauses catalog (Condition.mapEntries Json.withoutData entries))
        (entryClauses catalog entries)
  | [], _ => .nil
  | (_, _) :: _, h =>
    have h := allPlain_append.mp h
    .cons ⟨rfl, agree_conditionClauses hcatalog h.1⟩ (agree_entryClauses hcatalog h.2)

theorem agree_conditionClauses (hcatalog : AllPlain catalog.written) {field : String} :
    ∀ {condition : Condition}, AllPlain (Harvest.written.condition field condition) →
      Agree AlikeClauses (conditionClauses catalog field (condition.mapValues Json.withoutData))
        (conditionClauses catalog field condition)
  | .anyOf _, h => (agree_branchTexts hcatalog .or h).map fun _ _ => alike_groupClauses .or
  | .allOf _, h => (agree_branchTexts hcatalog .and h).map fun _ _ => alike_groupClauses .and
  | .negation (.ofEntries _), h =>
    (agree_gather (agree_entryClauses hcatalog h)).map fun _ _ hclauses =>
      alike_negationClauses (alike_join hclauses)
  | .existence _, h => (agree_existenceTexts hcatalog h).map fun _ _ => alike_existenceClauses
  | .equals _, h => by
    obtain ⟨hfield, hvalue⟩ := allPlain_append.mp h
    have htext := (Sql.alike_identifier (allPlain_name.mp hfield)).glue
      (Sql.alike_literal (allPlain_value.mp hvalue))
      (Grade.separates_equals _)
    exact .cons (htext.mono _) .nil
  | .comparisons _, h => agree_comparisonsClauses hcatalog h

theorem agree_branchTexts (hcatalog : AllPlain catalog.written) (connective : Connective) :
    ∀ {branches : List Predicate}, AllPlain (Harvest.written.branches branches) →
      Agree (List.Forall₂ (Alike .closed))
        (branchTexts catalog connective (Predicate.mapBranches Json.withoutData branches))
        (branchTexts catalog connective branches)
  | [], _ => .nil
  | .ofEntries _ :: _, h =>
    have h := allPlain_append.mp h
    (agree_gather (agree_entryClauses hcatalog h.1)).bind fun _ _ _ _ hclauses =>
      (agree_branchTexts hcatalog connective h.2).bind fun _ _ _ _ hothers =>
        .cons (alike_closed_join connective (hclauses.imp fun _ _ h => h.toClosed)) hothers

/-- A test for any row has no condition, and is the test with the empty body. -/
theorem agree_existenceTexts (hcatalog : AllPlain catalog.written) :
    ∀ {entries : List (String × ExistsBody)}, AllPlain (Harvest.written.existence entries) →
      Agree (List.Forall₂ (Alike .inert))
        (existenceTexts catalog (ExistsBody.mapEntries Json.withoutData entries))
        (existenceTexts catalog entries)
  | [], _ => .nil
  | (name, .anyRow) :: rest, h => by
    have hrest : AllPlain (Harvest.written.existence rest) := h
    have hplace : AllPlain (Harvest.written.place .existence name none QueryBody.empty) :=
      allPlain_nil
    apply Agree.bind_same
    intro place hok
    have hplace := PlainPlace.of hcatalog hplace hok
    refine (agree_existenceTexts hcatalog hrest).bind ?_
    rintro _ _ _ _ hothers
    exact List.Forall₂.cons (alike_subQueryText alike_exists hplace .empty .empty id) hothers
  | (name, .rowsOf ⟨table?, body⟩) :: _, h => by
    rw [Harvest.existence, allPlain_append, allPlain_append] at h
    obtain ⟨⟨hplace, hbody⟩, hrest⟩ := h
    apply Agree.bind_same
    intro place hok
    have hplace := PlainPlace.of hcatalog hplace hok
    refine (agree_expandBody hcatalog hbody).bind fun _ _ _ _ hexpansion =>
      (agree_existenceTexts hcatalog hrest).bind fun _ _ _ _ hothers => .cons ?_ hothers
    exact alike_subQueryText alike_exists hplace (allPlain_body hbody).1 hexpansion _

theorem agree_comparisonsClauses (hcatalog : AllPlain catalog.written) {field : String} :
    ∀ {entries : List (Operator × Operand)},
      AllPlain (Harvest.written.comparisons field entries) →
      Agree AlikeClauses
        (comparisonsClauses catalog field (Operand.mapEntries Json.withoutData entries))
        (comparisonsClauses catalog field entries)
  | [], _ => .nil
  | (_, _) :: _, h =>
    have h := allPlain_append.mp h
    (agree_operandClauses hcatalog h.1).bind fun _ _ _ _ hown =>
      (agree_comparisonsClauses hcatalog h.2).bind fun _ _ _ _ hothers =>
        List.rel_append hown hothers

/-- Subqueries behind an operator that takes no rows are refused, with data and without. -/
theorem agree_operandClauses (hcatalog : AllPlain catalog.written) {field : String}
    {operator : Operator} :
    ∀ {operand : Operand}, AllPlain (Harvest.written.operand field operator operand) →
      Agree AlikeClauses
        (operandClauses catalog field operator (operand.mapValues Json.withoutData))
        (operandClauses catalog field operator operand)
  | .value _, h => by
    obtain ⟨hfield, hvalue⟩ := allPlain_append.mp h
    exact agree_valueClauses h (allPlain_name.mp hfield) (allPlain_value.mp hvalue)
  | .list _, h => by
    obtain ⟨hfield, hitems⟩ := allPlain_append.mp h
    exact agree_listClauses h (allPlain_name.mp hfield) (allPlain_value.mp hitems)
  | .subqueries queries, h => by
    obtain ⟨hfield, hqueries⟩ := allPlain_append.mp h
    rw [Operand.mapValues, operandClauses, operandClauses]
    split
    · next hmember =>
      apply (agree_rowsTexts hcatalog (alike_membership hmember) hqueries).map
      intro _ _ htexts
      refine Sql.forall₂_map (htexts.imp ?_)
      intro _ _ htext
      -- the column and the subquery stand apart by a blank
      exact ((Sql.alike_identifier (allPlain_name.mp hfield)).glue htext
        (Grade.separates_space _)).mono _
    split
    · exact rfl
    · exact rfl
  | .quantified groups, h => by
    obtain ⟨hfield, hgroups⟩ := allPlain_append.mp h
    rw [Operand.mapValues, operandClauses, operandClauses]
    split
    · exact rfl
    split
    · exact rfl
    · next hrange =>
      apply (agree_quantifiedTexts hcatalog hgroups).map
      intro _ _ htexts
      exact Sql.forall₂_map (htexts.imp fun _ _ htext =>
        (alike_comparisonText (allPlain_name.mp hfield) (Bool.eq_false_iff.mpr hrange) htext).mono
          _)

theorem agree_quantifiedTexts (hcatalog : AllPlain catalog.written) :
    ∀ {groups : List (Quantifier × List (String × SubQuery))},
      AllPlain (Harvest.written.quantified groups) →
      Agree (List.Forall₂ (Alike .inert))
        (quantifiedTexts catalog (SubQuery.mapGroups Json.withoutData groups))
        (quantifiedTexts catalog groups)
  | [], _ => .nil
  | (quantifier, _) :: _, h => by
    obtain ⟨hown, hothers⟩ := allPlain_append.mp h
    exact (agree_rowsTexts hcatalog (alike_quantifier quantifier) hown).bind fun _ _ _ _ hown =>
      (agree_quantifiedTexts hcatalog hothers).bind fun _ _ _ _ hothers =>
        List.rel_append hown hothers

theorem agree_rowsTexts (hcatalog : AllPlain catalog.written) {keyword : String}
    (hkeyword : Alike .inert keyword keyword) :
    ∀ {queries : List (String × SubQuery)},
      AllPlain (Harvest.written.subqueries keyword queries) →
      Agree (List.Forall₂ (Alike .inert))
        (rowsTexts catalog keyword (SubQuery.mapEntries Json.withoutData queries))
        (rowsTexts catalog keyword queries)
  | [], _ => .nil
  | (name, ⟨table?, body⟩) :: _, h => by
    rw [Harvest.subqueries, allPlain_append, allPlain_append] at h
    obtain ⟨⟨hplace, hbody⟩, hrest⟩ := h
    apply Agree.bind_same
    intro place hok
    have hplace := PlainPlace.of hcatalog hplace hok
    refine (agree_expandBody hcatalog hbody).bind fun _ _ _ _ hexpansion =>
      (agree_rowsTexts hcatalog hkeyword hrest).bind fun _ _ _ _ hothers => .cons ?_ hothers
    exact alike_subQueryText (alike_rows hkeyword) hplace (allPlain_body hbody).1 hexpansion _

/-- Both conditions of a body are one level each, whatever the joins add to the first of them. -/
theorem agree_expandBody (hcatalog : AllPlain catalog.written) :
    ∀ {body : QueryBody}, AllPlain (Harvest.written.body body) →
      Agree AlikeExpansion (expandBody catalog (body.mapValues Json.withoutData))
        (expandBody catalog body)
  | ⟨select, filter, groupBy, having, orderBy, limit, offset, left, right, inner, full⟩, h => by
    obtain ⟨-, hfilter, hleft, hright, hinner, hfull, hhaving⟩ := allPlain_body h
    rw [QueryBody.mapValues, expandBody, expandBody]
    -- the conditions of the joins are laid over the body's own, so they are one level
    have hlevel := agree_overlay (List.rel_append (List.rel_append (List.rel_append
      (List.rel_append (alike_filterClauses hcatalog hfilter) (alike_joinFilters hcatalog hleft))
      (alike_joinFilters hcatalog hright)) (alike_joinFilters hcatalog hinner))
      (alike_joinFilters hcatalog hfull))
    have hhaving := agree_overlay (alike_filterClauses hcatalog hhaving)
    have hsame := joinsText_mapValues Json.withoutData catalog
      ⟨select, filter, groupBy, having, orderBy, limit, offset, left, right, inner, full⟩
    rw [QueryBody.mapValues] at hsame
    rw [hsame]
    exact Agree.bind_same fun _ hok => hlevel.bind fun _ _ _ _ hfilter =>
      hhaving.bind fun _ _ _ _ hhaving =>
        AlikeExpansion.mk (chunk_joinsText hcatalog hok) hfilter hhaving

theorem alike_filterClauses (hcatalog : AllPlain catalog.written) :
    ∀ {filter : Option Predicate},
      AllPlain ((Harvest.written.filter filter).flatMap Harvest.all) →
      AlikeFilters (filterClauses catalog (Predicate.mapFilter Json.withoutData filter))
        (filterClauses catalog filter)
  | none, _ => .nil
  | some (.ofEntries _), h =>
    .cons (agree_entryClauses hcatalog (allPlain_append.mp h).1) .nil

theorem alike_joinFilters (hcatalog : AllPlain catalog.written) :
    ∀ {joins : List (String × JoinQuery)},
      AllPlain ((Harvest.written.joinFilters joins).flatMap Harvest.all) →
      AlikeFilters (joinFilters catalog (JoinQuery.mapEntries Json.withoutData joins))
        (joinFilters catalog joins)
  | [], _ => .nil
  | (_, ⟨_, filter⟩) :: rest, h => by
    rw [Harvest.joinFilters, List.flatMap_append, allPlain_append] at h
    exact List.rel_append (alike_filterClauses hcatalog h.1) (alike_joinFilters hcatalog h.2)

end

end DescriptorSql
