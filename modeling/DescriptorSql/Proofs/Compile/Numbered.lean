import DescriptorSql.Compile.Select
import DescriptorSql.Proofs.Compile.Carries
import DescriptorSql.Proofs.Compile.Sequence

/-!
# `Proofs/Compile/Numbered.lean` — queries with numbered values

A query whose values are named compiles to a text with slots, and with numbers in the slots that is
the text of the query with numbers for the names (`lifts_query`). The conditions of a query's joins
are laid over its own before they are compiled, so numbers are put into the conditions that are
left, and from there into the descriptor.
-/

set_option autoImplicit false

namespace DescriptorSql

open Binding (Lifts LiftsAll LiftsOption SlotNumbers)
open Sql (ClosesApart NoAt OpensApart startsApart)

variable {values : Entries String Json} {catalog : Catalog}

/-! ## Joins -/

/-- The joins have the names of relations only, and no named value. -/
theorem closesApart_joinsText (hcatalog : AllNamed values catalog.written)
    {joins : List (JoinKind × String × JoinQuery)} {text : String}
    (hok : joinsText catalog joins = .ok text) : ClosesApart text := by
  obtain ⟨texts, rfl, hjoins⟩ := exists_of_joinsText hok
  refine .join fun text htext => ?_
  obtain ⟨kind, name, relation, hrelation, rfl⟩ := hjoins text htext
  exact (catalog.noAt_of_resolve hcatalog hrelation).relationJoin kind

/-! ## Bodies -/

/-- Everything in the body is named, and its conditions carry names through. -/
structure CarriesBody (values : Entries String Json) (catalog : Catalog) (body : QueryBody) :
    Prop where
  named : NamedBody values body
  filters : ∀ predicate ∈ body.filters, CarriesPredicate values catalog predicate
  having : ∀ predicate ∈ body.having.toList, CarriesPredicate values catalog predicate

/-- Joins in front of those of an expansion. -/
def Expansion.behind (joins : String) (expansion : Expansion) : Expansion :=
  { expansion with joins := joins ++ expansion.joins }

/-- A SELECT over the expansion of a body, with joins in front of its own. -/
theorem CarriesBody.lifts_select {body : QueryBody} (hbody : CarriesBody values catalog body)
    (hcatalog : AllNamed values catalog.written) {columns source laterals : String}
    {append : Sql.Append} {J : SlotNumbers → String → Prop} (hcolumns : NoAt columns)
    (hsource : NoAt source) (hjoin : append.join = none) (happend : ∀ sql ∈ append.filter, NoAt sql)
    (hlaterals : Lifts values laterals J) (hapart : startsApart laterals.toList = true)
    {expansion : Expansion} (hok : expandBody catalog body = .ok expansion) :
    Lifts values (selectStatement columns source body (expansion.behind laterals) append)
      fun numbers text => ∃ body' expansion' laterals',
        QueryBody.Related (Json.Numbered numbers) body body' ∧
        expandBody catalog body' = .ok expansion' ∧ J numbers laterals' ∧
        text = selectStatement columns source body' (expansion'.behind laterals') append := by
  rw [expandBody_eq] at hok
  obtain ⟨joins, hjoins, hok⟩ := exists_of_bind_eq_ok hok
  obtain ⟨filter, hfilter, hok⟩ := exists_of_bind_eq_ok hok
  obtain ⟨having, hhaving, hok⟩ := exists_of_bind_eq_ok hok
  cases hok
  rw [QueryBody.mergedFilter_eq] at hfilter
  rw [overlayText_filterClauses] at hhaving
  have hjoinsText := closesApart_joinsText hcatalog hjoins
  -- the text in front of the joins has no value in it
  have hhead : NoAt ("SELECT " ++ columns ++ " FROM " ++ source) := by
    have hselect : NoAt "SELECT " := by decide
    have hfrom : NoAt " FROM " := by decide
    rw [Sql.noAt_append, Sql.noAt_append, Sql.noAt_append]
    exact ⟨⟨⟨hselect, hcolumns⟩, hfrom⟩, hsource⟩
  have hall := hlaterals.before hjoinsText
  have hallApart : startsApart (laterals ++ joins).toList = true := by
    rw [String.toList_append]
    exact Sql.startsApart_append_of hapart hjoinsText.starts
  -- what stands behind the conditions has values only in its bounds
  have hnamed : Sql.Clauses.IsNamed values
      { head := "SELECT " ++ columns ++ " FROM " ++ source
        joins := laterals ++ joins
        filter := filter
        groupBy := body.groupBy
        having := having
        orderBy := body.orderBy
        limit := body.limit
        offset := body.offset } :=
    ⟨hbody.named.groupBy, hbody.named.orderBy, hbody.named.limit, hbody.named.offset, by simp⟩
  have hlift := hnamed.lifts_toSql (Lifts.ofNoAt hhead) hall hallApart
    (lifts_overlaid hbody.filters hfilter) (lifts_overlaid hbody.having hhaving) hjoin happend
  refine hlift.mono ?_
  rintro numbers _ ⟨_, _, filter', having', limit, offset, rfl, rfl, ⟨laterals', rfl, hlaterals'⟩,
    ⟨filters, hfilters, hfilter'⟩, ⟨havings, hhavings, hhaving'⟩, hlimit, hoffset⟩
  -- the numbered conditions come from a numbered body, before they are laid over each other
  obtain ⟨havingPredicate, hhavingPredicate, rfl⟩ := exists_toList hhavings
  obtain ⟨body', hrelated, rfl, rfl, rfl, rfl⟩ :=
    QueryBody.exists_related hfilters hhavingPredicate hlimit hoffset
  refine ⟨body', ⟨joins, filter', having'⟩, laterals', hrelated, ?_, hlaterals', ?_⟩
  · rw [expandBody_eq, hrelated.joinsText_eq, hjoins, QueryBody.mergedFilter_eq, hfilter',
      overlayText_filterClauses, hhaving']
    rfl
  · rw [selectStatement, hrelated.groupBy_eq, hrelated.orderBy_eq]
    rfl

/-! ## Subqueries -/

/-- Nothing that a place writes has an at sign. -/
structure NoAtPlace (place : SubQueryPlace) : Prop where
  source : NoAt place.source
  filter : ∀ sql ∈ place.append.filter, NoAt sql
  join : place.append.join = none
  closing : place.closing = ")" ∨ place.closing = " )"

/-- The place is found by the names of tables and relations, which are no values. -/
theorem NoAtPlace.of (hcatalog : AllNamed values catalog.written) {kind : SubQueryKind}
    {name : String} {table? : Option String} {body : QueryBody}
    (h : AllNamed values (Harvest.written.place kind name table? body)) {place : SubQueryPlace}
    (hok : subQueryPlace catalog name table? = .ok place) : NoAtPlace place := by
  cases table? with
  | some table =>
    cases hok
    exact ⟨Sql.noAt_tableRef (noAt_of_name h) (by simp), by simp, rfl, Or.inl rfl⟩
  | none =>
    obtain ⟨relation, hrelation, hok⟩ := exists_of_bind_eq_ok hok
    cases hok
    have hnames := catalog.noAt_of_resolve hcatalog hrelation
    refine ⟨hnames.relationSource, ?_, rfl, ?_⟩
    · rintro _ ⟨⟩
      exact hnames.correlation
    · dsimp only
      split
      · exact Or.inr rfl
      · exact Or.inl rfl

/-- A subquery selects its own columns, or the one that its kind asks for. -/
theorem NamedBody.rowsColumns {body : QueryBody} (h : NamedBody values body) (kind : SubQueryKind) :
    NoAtColumns (body.outputColumns (kind.select body.select) []) := by
  refine h.outputColumns ?_ (by simp)
  cases kind with
  | existence =>
    intro entry hentry
    obtain rfl := List.mem_singleton.mp hentry
    exact ⟨show NoAt "1" by decide, by simp⟩
  | rows keyword => exact h.select

/-- A subquery carries names through. -/
theorem carries_subQuery (hcatalog : AllNamed values catalog.written) (kind : SubQueryKind)
    (hkind : NoAt kind.keyword) {name : String} {table? : Option String} {body : QueryBody}
    (hplace : AllNamed values (Harvest.written.place kind name table? body))
    (hbody : CarriesBody values catalog body) :
    Carries values (fun numbers => Keyed (SubQuery.Related (Json.Numbered numbers)))
      (subQueryTexts catalog kind) (name, ⟨table?, body⟩) := by
  intro texts hok
  obtain ⟨place, hresolve, hok⟩ := exists_of_bind_eq_ok hok
  obtain ⟨expansion, hexpansion, hok⟩ := exists_of_bind_eq_ok hok
  cases hok
  obtain ⟨hsource, hfilter, hjoin, hclosing⟩ := NoAtPlace.of hcatalog hplace hresolve
  have hbare : ∀ expansion : Expansion, expansion.behind "" = expansion := fun expansion => by
    rw [Expansion.behind, String.empty_append]
  have hcloses : ClosesApart place.closing := by
    rcases hclosing with hclosing | hclosing
    · rw [hclosing]
      decide
    · rw [hclosing]
      decide
  have hopens : OpensApart (kind.keyword ++ "(") := hkind.opensApart (by decide) (by simp)
  have hselect :=
    hbody.lifts_select hcatalog (hbody.named.rowsColumns kind).selectList hsource hjoin
    hfilter (Lifts.ofNoAt (show NoAt "" by decide)) rfl hexpansion
  rw [hbare] at hselect
  refine (LiftsAll.single (hselect.enclosed hopens hcloses)).mono ?_
  rintro numbers _ ⟨_, rfl, _, rfl, body', expansion', _, hrelated, hexpansion', rfl, rfl⟩
  refine ⟨(name, ⟨table?, body'⟩), .mk (.mk hrelated), ?_⟩
  rw [subQueryTexts, hresolve]
  dsimp only
  rw [hexpansion', hbare]
  dsimp only [subQueryText]
  rw [← hrelated.outputColumns_eq, ← hrelated.select_eq]
  rfl

/-! ## Comparisons -/

/-- A comparison with whatever lifts. -/
theorem lifts_comparison {field : String} (hfield : NoAt field) (operator : Operator)
    {right : String} {P : SlotNumbers → String → Prop} (h : Lifts values right P) :
    Lifts values (comparisonText field operator right) fun numbers text =>
      ∃ right', text = comparisonText field operator right' ∧ P numbers right' := by
  have hoperator : OpensApart (" " ++ operator.sql ++ " ") := by cases operator <;> decide
  have htext : ∀ right, comparisonText field operator right =
      Sql.identifier field ++ (" " ++ operator.sql ++ " ") ++ right := by
    intro right
    simp only [comparisonText, String.append_assoc]
  rw [htext]
  refine (h.behind ((Sql.noAt_identifier hfield).opensApart hoperator (by simp))).mono ?_
  rintro numbers _ ⟨right', rfl, hright⟩
  exact ⟨right', (htext right').symm, hright⟩

/-- What a list of values is compared with: two bounds, or the list. -/
def listClauses (field : String) (operator : Operator) (items : List Json) : Clausal :=
  if operator.isRange then rangeClauses field operator (.list items)
  else .ok [comparisonText field operator (Sql.literalList items)]

/-- A list is compiled as the array of its items is, and the two lemmas say it of one definition. -/
theorem operandClauses_list (catalog : Catalog) (field : String) (operator : Operator)
    (items : List Json) :
    operandClauses catalog field operator (.list items) = listClauses field operator items := by
  rw [operandClauses, listClauses]
  cases operator <;> rfl

theorem operandClauses_array (catalog : Catalog) (field : String) (operator : Operator)
    (items : List Json) :
    operandClauses catalog field operator (.value (.array items)) =
      listClauses field operator items := by
  rw [operandClauses, listClauses]
  cases operator <;> rfl

/-- For a range, each of two bounds is numbered. Any other list is written as a whole. -/
theorem carries_list {field : String} (hfield : NoAt field) {operator : Operator}
    {items : List Json} (hitems : Json.itemsAreNamed values items = true) :
    Carries values (fun numbers => List.Forall₂ (Json.Numbered numbers))
      (listClauses field operator)
      items := by
  by_cases hrange : operator.isRange = true
  · intro texts hok
    rw [listClauses, if_pos hrange] at hok
    match items with
    | [] | [_] | _ :: _ :: _ :: _ => cases hok
    | [low, high] =>
      cases hok
      simp only [Json.itemsAreNamed, Bool.and_eq_true, and_true] at hitems
      have hbounds := (lifts_literal hitems.1).append
        ((lifts_literal hitems.2).behind (show OpensApart " AND " by decide))
        (Sql.Seam.before (by decide))
      rw [← String.append_assoc] at hbounds
      refine (LiftsAll.single (lifts_comparison hfield operator hbounds)).mono ?_
      rintro numbers _ ⟨_, rfl, _, rfl, _, _, rfl, ⟨low', hlow, rfl⟩, _, rfl, high', hhigh, rfl⟩
      refine ⟨[low', high'], .cons hlow (.cons hhigh .nil), ?_⟩
      rw [listClauses, if_pos hrange, ← String.append_assoc]
      rfl
  · refine .single (fun items => comparisonText field operator (Sql.literalList items))
      (fun items => by rw [listClauses, if_neg hrange]) ?_
    refine (lifts_comparison hfield operator (lifts_literalList hitems)).mono ?_
    rintro numbers _ ⟨_, rfl, items', hnumbered, rfl⟩
    exact ⟨items', hnumbered, rfl⟩

abbrev CarriesOperand (values : Entries String Json) (catalog : Catalog) (field : String)
    (operator : Operator) (operand : Operand) : Prop :=
  Carries values (fun numbers => Operand.Related (Json.Numbered numbers))
    (operandClauses catalog field operator) operand

/-- A value that is no list stands behind the operator, and gets its number there. -/
theorem carries_value {field : String} (hfield : NoAt field) {operator : Operator} {value : Json}
    (hvalue : value.isNamed values = true) :
    CarriesOperand values catalog field operator (.value value) := by
  by_cases harray : ∃ items, value = .array items
  · obtain ⟨items, rfl⟩ := harray
    exact (carries_list hfield hvalue).wrap (c := fun items => Operand.value (.array items))
      (operandClauses_array catalog field operator) fun h => .value (.array h)
  · intro texts hok
    have hplain : ¬ operator.isMembership = true ∧ ¬ operator.isRange = true := by
      constructor
      · intro hmember
        unfold operandClauses at hok
        rw [if_pos hmember] at hok
        cases value <;> first | exact harray ⟨_, rfl⟩ | cases hok
      · intro hrange
        have hmember : ¬ operator.isMembership = true := by
          cases operator <;> simp_all [Operator.isRange, Operator.isMembership]
        unfold operandClauses at hok
        rw [if_neg hmember, if_pos hrange] at hok
        cases value <;> first | exact harray ⟨_, rfl⟩ | cases hok
    have hcompile : ∀ value, operandClauses catalog field operator (.value value) =
        .ok [comparisonText field operator (Sql.literal value)] := by
      intro value
      unfold operandClauses
      rw [if_neg hplain.1, if_neg hplain.2]
    rw [hcompile] at hok
    cases hok
    refine (LiftsAll.single (lifts_comparison hfield operator (lifts_literal hvalue))).mono ?_
    rintro numbers _ ⟨_, rfl, _, rfl, value', hnumbered, rfl⟩
    exact ⟨.value value', .value hnumbered, hcompile value'⟩

/-! ## Predicates and queries -/

/-- Nothing in the empty query can be changed. -/
theorem eq_empty_of_related {R : Json → Json → Prop} {query : SubQuery}
    (h : SubQuery.Related R SubQuery.empty query) : query = SubQuery.empty := by
  obtain ⟨hbody⟩ := h
  obtain ⟨⟨⟩, ⟨⟩, ⟨⟩, ⟨⟩, ⟨⟩, ⟨⟩, ⟨⟩, ⟨⟩⟩ := hbody
  rfl

theorem carriesBody_empty (values : Entries String Json) (catalog : Catalog) :
    CarriesBody values catalog QueryBody.empty := by
  refine ⟨NamedBody.of ?_, ?_, ?_⟩
  · intro text htext
    cases htext
  · intro predicate hpredicate
    cases hpredicate
  · intro predicate hpredicate
    cases hpredicate

theorem CarriesPredicate.branch {predicate : Predicate} (connective : Connective)
    (h : CarriesPredicate values catalog predicate) :
    Carries values (fun numbers => Predicate.Related (Json.Numbered numbers))
      (fun branch => (fun text => [text]) <$> branch.toSql catalog connective) predicate := by
  intro texts hok
  obtain ⟨text, htext, rfl⟩ := exists_of_map_eq_ok hok
  refine (LiftsAll.single (h.lifts_toSql htext)).mono ?_
  rintro numbers _ ⟨text', rfl, predicate', hrelated, htext'⟩
  refine ⟨predicate', hrelated, ?_⟩
  dsimp only
  rw [htext']
  rfl

/-- Everything in a body is named, its conditions one level at a time. -/
theorem allNamed_body {body : QueryBody} (h : AllNamed values (Harvest.written.body body)) :
    NamedBody values body ∧
      AllNamed values ((Harvest.written.filter body.filter).flatMap Harvest.all) ∧
      AllNamed values ((Harvest.written.joinFilters body.leftJoin).flatMap Harvest.all) ∧
      AllNamed values ((Harvest.written.joinFilters body.rightJoin).flatMap Harvest.all) ∧
      AllNamed values ((Harvest.written.joinFilters body.innerJoin).flatMap Harvest.all) ∧
      AllNamed values ((Harvest.written.joinFilters body.fullJoin).flatMap Harvest.all) ∧
      AllNamed values ((Harvest.written.filter body.having).flatMap Harvest.all) := by
  obtain ⟨hclauses, hconditions⟩ := Harvest.forall_mem_body (fun _ => rfl) h
  exact ⟨.of hclauses, hconditions⟩

mutual

/-- The induction follows the compiler. Of each part it is said that numbering its text is compiling
it with numbers for its values. -/
theorem carries_entries (hcatalog : AllNamed values catalog.written) :
    ∀ {entries : List (String × Condition)},
      AllNamed values (Harvest.all (Harvest.written.entries entries)) →
      ∀ entry ∈ entries, CarriesCondition values catalog entry.1 entry.2
  | [], _ => by simp
  | (_, _) :: _, h =>
    have h := List.forall_mem_append.mp h
    List.forall_mem_cons.mpr ⟨carries_condition hcatalog h.1, carries_entries hcatalog h.2⟩

theorem carries_condition (hcatalog : AllNamed values catalog.written) {field : String} :
    ∀ {condition : Condition}, AllNamed values (Harvest.written.condition field condition) →
      CarriesCondition values catalog field condition
  | .anyOf _, h =>
    ((carries_branches hcatalog .or h).through (transports_groupClauses .or)).wrap
    (fun _ => rfl) .anyOf
  | .allOf _, h =>
    ((carries_branches hcatalog .and h).through (transports_groupClauses .and)).wrap (fun _ => rfl)
      .allOf
  | .negation (.ofEntries _), h =>
    have hentries := CarriesPredicate.gather (carries_entries hcatalog h)
    (hentries.through transports_negation).wrap
      (c := fun entries => Condition.negation (.ofEntries entries))
      (fun _ => rfl) fun h => Condition.Related.negation (.ofEntries h)
  | .existence _, h =>
    ((carries_existence hcatalog h).through transports_existenceClauses).wrap
      (fun _ => rfl) .existence
  | .equals value, h => by
    obtain ⟨hfield, hvalue⟩ := List.forall_mem_append.mp h
    have hlead : OpensApart (Sql.identifier field ++ " = ") :=
      (Sql.noAt_identifier (noAt_of_name hfield)).opensApart (by decide) (by simp)
    have hvalue := (lifts_literal (isNamed_of_value hvalue)).behind hlead
    have hequals : Carries values (fun numbers => Json.Numbered numbers)
        (fun value => .ok [Sql.identifier field ++ " = " ++ Sql.literal value]) value := by
      refine .single (fun value => Sql.identifier field ++ " = " ++ Sql.literal value)
        (fun _ => rfl)
        (hvalue.mono ?_)
      rintro numbers _ ⟨_, rfl, value', hnumbered, rfl⟩
      exact ⟨value', hnumbered, rfl⟩
    exact hequals.wrap (fun _ => rfl) .equals
  | .comparisons _, h => (carries_comparisons hcatalog h).wrap (fun _ => rfl) .comparisons

theorem carries_branches (hcatalog : AllNamed values catalog.written) (connective : Connective) :
    ∀ {branches : List Predicate}, AllNamed values (Harvest.written.branches branches) →
      Carries values (fun numbers => List.Forall₂ (Predicate.Related (Json.Numbered numbers)))
        (branchTexts catalog connective) branches
  | [], _ => .nil rfl
  | .ofEntries _ :: _, h =>
    have h := List.forall_mem_append.mp h
    have hbranch : CarriesPredicate values catalog (.ofEntries _) := carries_entries hcatalog h.1
    (hbranch.branch connective).cons (carries_branches hcatalog connective h.2)
      (branchTexts_cons catalog connective)

/-- The test for any row has no value in it, and is its own numbered form. -/
theorem carries_existence (hcatalog : AllNamed values catalog.written) :
    ∀ {entries : List (String × ExistsBody)}, AllNamed values (Harvest.written.existence entries) →
      Carries values
        (fun numbers => List.Forall₂ (Keyed (ExistsBody.Related (Json.Numbered numbers))))
        (existenceTexts catalog) entries
  | [], _ => .nil rfl
  | (name, .anyRow) :: _, h =>
    have hplace : AllNamed values (Harvest.written.place .existence name none QueryBody.empty) := by
      intro text htext
      cases htext
    have hany : Carries values
        (fun numbers => Keyed (ExistsBody.Related (Json.Numbered numbers)))
        (fun entry => subQueryTexts catalog .existence (entry.1, entry.2.toSubQuery))
        (name, .anyRow) := by
      intro texts hok
      refine (carries_subQuery hcatalog .existence (by decide) hplace
        (carriesBody_empty values catalog) texts hok).mono ?_
      rintro numbers _ ⟨_, ⟨hquery⟩, hok'⟩
      obtain rfl := eq_empty_of_related hquery
      exact ⟨(name, .anyRow), .mk .anyRow, hok'⟩
    hany.cons (carries_existence hcatalog h) (existenceTexts_cons catalog)
  | (name, .rowsOf ⟨table?, body⟩) :: _, h => by
    obtain ⟨h, hrest⟩ := List.forall_mem_append.mp h
    obtain ⟨hplace, hbody⟩ := List.forall_mem_append.mp h
    have hrows : Carries values
        (fun numbers => Keyed (ExistsBody.Related (Json.Numbered numbers)))
        (fun entry => subQueryTexts catalog .existence (entry.1, entry.2.toSubQuery))
        (name, .rowsOf ⟨table?, body⟩) := by
      refine (carries_subQuery hcatalog .existence (by decide) hplace
        (carries_body hcatalog hbody)).wrap (c := fun entry => (entry.1, ExistsBody.rowsOf entry.2))
        (fun _ => rfl) ?_
      rintro numbers _ _ ⟨hquery⟩
      exact .mk (.rowsOf hquery)
    exact hrows.cons (carries_existence hcatalog hrest) (existenceTexts_cons catalog)

theorem carries_comparisons (hcatalog : AllNamed values catalog.written) {field : String} :
    ∀ {entries : List (Operator × Operand)},
      AllNamed values (Harvest.written.comparisons field entries) →
      Carries values (fun numbers => List.Forall₂ (Keyed (Operand.Related (Json.Numbered numbers))))
        (comparisonsClauses catalog field) entries
  | [], _ => .nil rfl
  | (operator, operand) :: _, h =>
    have h := List.forall_mem_append.mp h
    have hentry : Carries values (fun numbers => Keyed (Operand.Related (Json.Numbered numbers)))
        (fun entry => operandClauses catalog field entry.1 entry.2) (operator, operand) :=
      (carries_operand hcatalog h.1).wrap (c := fun operand => (operator, operand))
        (fun _ => rfl) .mk
    hentry.cons (carries_comparisons hcatalog h.2) fun _ _ => rfl

/-- Whether an operand fits its operator does not depend on its values. One that does not fit is not
compiled, and nothing is to be shown of it. -/
theorem carries_operand (hcatalog : AllNamed values catalog.written) {field : String}
    {operator : Operator} :
    ∀ {operand : Operand}, AllNamed values (Harvest.written.operand field operator operand) →
      CarriesOperand values catalog field operator operand
  | .value _, h => by
    obtain ⟨hfield, hvalue⟩ := List.forall_mem_append.mp h
    exact carries_value (noAt_of_name hfield) (isNamed_of_value hvalue)
  | .list items, h => by
    obtain ⟨hfield, hitems⟩ := List.forall_mem_append.mp h
    have hitems : (Json.array items).isNamed values = true := isNamed_of_value hitems
    exact (carries_list (noAt_of_name hfield) hitems).wrap
      (operandClauses_list catalog field operator)
      .list
  | .subqueries queries, h => by
    obtain ⟨hfield, hqueries⟩ := List.forall_mem_append.mp h
    by_cases hmember : operator.isMembership = true
    · have hkeyword : NoAt operator.sql := by cases operator <;> decide
      have hlead : OpensApart (Sql.identifier field ++ " ") :=
        (Sql.noAt_identifier (noAt_of_name hfield)).opensApart (by decide) (by simp)
      refine ((carries_rows hcatalog hkeyword hqueries).through (transports_map hlead)).wrap ?_
        .subqueries
      intro queries
      rw [operandClauses, if_pos hmember]
    · -- subqueries behind any other operator do not compile
      intro texts hok
      rw [operandClauses, if_neg hmember] at hok
      split at hok <;> cases hok
  | .quantified groups, h => by
    obtain ⟨hfield, hgroups⟩ := List.forall_mem_append.mp h
    by_cases hplain : operator.isMembership = true ∨ operator.isRange = true
    · intro texts hok
      rw [operandClauses] at hok
      cases operator <;>
        first | cases hok | simp [Operator.isMembership, Operator.isRange] at hplain
    · obtain ⟨hmember, hrange⟩ := not_or.mp hplain
      have htransports : Transports values (List.map (comparisonText field operator)) :=
        fun h => h.map fun htext => lifts_comparison (noAt_of_name hfield) operator htext
      refine ((carries_quantified hcatalog hgroups).through htransports).wrap ?_ .quantified
      intro groups
      rw [operandClauses, if_neg hmember, if_neg hrange]

theorem carries_quantified (hcatalog : AllNamed values catalog.written) :
    ∀ {groups : List (Quantifier × List (String × SubQuery))},
      AllNamed values (Harvest.written.quantified groups) →
      Carries values
        (fun numbers =>
          List.Forall₂ (Keyed (List.Forall₂ (Keyed (SubQuery.Related (Json.Numbered numbers))))))
        (quantifiedTexts catalog) groups
  | [], _ => .nil rfl
  | (quantifier, queries) :: _, h => by
    obtain ⟨hown, hothers⟩ := List.forall_mem_append.mp h
    have hkeyword : NoAt quantifier.sql := by cases quantifier <;> decide
    have hgroup : Carries values
        (fun numbers => Keyed (List.Forall₂ (Keyed (SubQuery.Related (Json.Numbered numbers)))))
        (fun group => rowsTexts catalog group.1.sql group.2) (quantifier, queries) :=
      (carries_rows hcatalog hkeyword hown).wrap (c := fun queries => (quantifier, queries))
        (fun _ => rfl) .mk
    exact hgroup.cons (carries_quantified hcatalog hothers) fun _ _ => rfl

theorem carries_rows (hcatalog : AllNamed values catalog.written) {keyword : String}
    (hkeyword : NoAt keyword) :
    ∀ {queries : List (String × SubQuery)},
      AllNamed values (Harvest.written.subqueries keyword queries) →
      Carries values
        (fun numbers => List.Forall₂ (Keyed (SubQuery.Related (Json.Numbered numbers))))
        (rowsTexts catalog keyword) queries
  | [], _ => .nil rfl
  | (_, ⟨_, _⟩) :: _, h => by
    obtain ⟨h, hrest⟩ := List.forall_mem_append.mp h
    obtain ⟨hplace, hbody⟩ := List.forall_mem_append.mp h
    exact (carries_subQuery hcatalog (.rows keyword) hkeyword hplace
      (carries_body hcatalog hbody)).cons
      (carries_rows hcatalog hkeyword hrest) (rowsTexts_cons catalog keyword)

/-- The predicates of a body are carried one by one, before they are laid over each other. -/
theorem carries_body (hcatalog : AllNamed values catalog.written) :
    ∀ {body : QueryBody}, AllNamed values (Harvest.written.body body) →
      CarriesBody values catalog body
  | ⟨select, filter, groupBy, having, orderBy, limit, offset, left, right, inner, full⟩, h => by
    obtain ⟨hnamed, hfilter, hleft, hright, hinner, hfull, hhaving⟩ := allNamed_body h
    refine ⟨hnamed, ?_, carries_filter hcatalog hhaving⟩
    rw [QueryBody.filters_eq]
    simp only [List.forall_mem_append]
    exact ⟨carries_filter hcatalog hfilter, carries_joins hcatalog hleft,
      carries_joins hcatalog hright,
      carries_joins hcatalog hinner, carries_joins hcatalog hfull⟩

theorem carries_filter (hcatalog : AllNamed values catalog.written) :
    ∀ {filter : Option Predicate},
      AllNamed values ((Harvest.written.filter filter).flatMap Harvest.all) →
      ∀ predicate ∈ filter.toList, CarriesPredicate values catalog predicate
  | none, _ => by simp
  | some (.ofEntries _), h =>
    List.forall_mem_singleton.mpr (carries_entries hcatalog (List.forall_mem_append.mp h).1)

theorem carries_joins (hcatalog : AllNamed values catalog.written) :
    ∀ {joins : List (String × JoinQuery)},
      AllNamed values ((Harvest.written.joinFilters joins).flatMap Harvest.all) →
      ∀ predicate ∈ joinPredicates joins, CarriesPredicate values catalog predicate
  | [], _ => by simp [joinPredicates]
  | (name, ⟨select, filter⟩) :: rest, h => by
    rw [Harvest.joinFilters, List.flatMap_append] at h
    obtain ⟨hfirst, hrest⟩ := List.forall_mem_append.mp h
    have hjoins : joinPredicates ((name, ⟨select, filter⟩) :: rest) =
        filter.toList ++ joinPredicates rest := by
      cases filter <;> rfl
    rw [hjoins]
    exact List.forall_mem_append.mpr ⟨carries_filter hcatalog hfirst, carries_joins hcatalog hrest⟩

end

end DescriptorSql
