import DescriptorSql.Proofs.Compile.AlikeSelect
import DescriptorSql.Proofs.Compile.Sequence
import DescriptorSql.Proofs.Descriptor.Places

/-!
# `Proofs/Compile/Composed.lean` — what compiled texts are composed of

Whatever a descriptor is compiled to is composed of a few kinds of texts: conditions out of clauses,
clauses out of comparisons and subqueries, subqueries around SELECT statements, and these out of
conditions again (`Composed`). The names and values in them come from the places of the descriptor
and of the catalog, so a property `L` of all these places holds of everything that a text is
composed of (`composed_expand`, `composed_entryClauses`).
-/

set_option autoImplicit false

namespace DescriptorSql

/-- The kinds of texts. -/
inductive Part where
  /-- What a connective stands between. -/
  | clause
  | condition
  /-- A subquery with its keyword. -/
  | rows (keyword : String)
  | joins
  | select

/-- A table, or the tables of a relation. -/
inductive IsSource (L : Place → Prop) : String → Prop
  | table {table : String} {alias? : Option String} (htable : L (.name table))
      (halias : ∀ name ∈ alias?, L (.name name)) : IsSource L (Sql.tableRef table alias?)
  | relation {relation : Relation} (hrelation : ∀ place ∈ relation.places, L place) :
      IsSource L (Sql.relationSource relation)

/-- Output columns, one by one or as one JSON object. -/
inductive IsOutput (L : Place → Prop) : String → Prop
  | list {columns : Columns} (hcolumns : ∀ place ∈ Harvest.places.columns columns, L place) :
      IsOutput L columns.selectList
  | object {columns : Columns} {key : String} (hkey : L (.name key))
      (hcolumns : ∀ place ∈ Harvest.places.columns columns, L place)
      (hkeys : ∀ name ∈ Entries.keys columns, L (.part name)) : IsOutput L (columns.objectList key)

/-- A comparison with values: with one, with a list of them or with two bounds. -/
inductive IsComparison (L : Place → Prop) : String → Prop
  | value {field : String} {operator : Operator} {value : Json} (hfield : L (.name field))
      (hvalue : L (.value value)) (hmembership : operator.isMembership = false)
      (hrange : operator.isRange = false) :
      IsComparison L (comparisonText field operator (Sql.literal value))
  | list {field : String} {operator : Operator} {items : List Json} (hfield : L (.name field))
      (hitems : L (.value (.array items))) (hrange : operator.isRange = false) :
      IsComparison L (comparisonText field operator (Sql.literalList items))
  | range {field : String} {operator : Operator} {low high : Json} (hfield : L (.name field))
      (hbounds : L (.value (.array [low, high]))) (hrange : operator.isRange = true) :
      IsComparison L
        (comparisonText field operator (Sql.literal low ++ " AND " ++ Sql.literal high))

/-- The text is composed of places for which `L` holds, and its comparisons with values are texts
for which `C` holds. -/
inductive ComposedWith (L : Place → Prop) (C : String → Prop) : Part → String → Prop
  | condition (connective : Connective) {clauses : List String}
      (hclauses : ∀ clause ∈ clauses, ComposedWith L C .clause clause) :
      ComposedWith L C .condition (connective.join clauses)
  | group (connective : Connective) {branches : List String} (hne : branches ≠ [])
      (hshown : ∀ branch ∈ branches, branch ≠ "")
      (hbranches : ∀ branch ∈ branches, ComposedWith L C .condition branch) :
      ComposedWith L C .clause ("(" ++ connective.join branches ++ ")")
  | negation {text : String} (hne : text ≠ "") (htext : ComposedWith L C .condition text) :
      ComposedWith L C .clause ("NOT(" ++ text ++ ")")
  | existence {tests : List String} (hne : tests ≠ [])
      (htests : ∀ test ∈ tests, ComposedWith L C (.rows "EXISTS") test) :
      ComposedWith L C .clause (Connective.and.join tests)
  | comparison {text : String} (h : C text) : ComposedWith L C .clause text
  | member {field : String} {operator : Operator} {rows : String} (hfield : L (.name field))
      (hmembership : operator.isMembership = true)
      (hrows : ComposedWith L C (.rows operator.sql) rows) :
      ComposedWith L C .clause (Sql.identifier field ++ " " ++ rows)
  | quantified {field : String} {operator : Operator} {quantifier : Quantifier} {rows : String}
      (hfield : L (.name field)) (hmembership : operator.isMembership = false)
      (hrange : operator.isRange = false) (hrows : ComposedWith L C (.rows quantifier.sql) rows) :
      ComposedWith L C .clause (comparisonText field operator rows)
  | rows (keyword : String) {select closing : String} (hselect : ComposedWith L C .select select)
      (hclosing : closing = ")" ∨ closing = " )") :
      ComposedWith L C (.rows keyword) (keyword ++ "(" ++ select ++ closing)
  | noJoins : ComposedWith L C .joins ""
  | join (kind : JoinKind) {relation : Relation} (hrelation : ∀ place ∈ relation.places, L place) :
      ComposedWith L C .joins (Sql.relationJoin kind relation)
  | lateral {key select : String} (relation : Relation) (hkey : L (.name key))
      (hselect : ComposedWith L C .select select) :
      ComposedWith L C .joins
        (Sql.lateralJoin (nestedHead key relation ++ " FROM " ++ ("(" ++ select ++ ")") ++ " "))
  | joins {first second : String} (hfirst : ComposedWith L C .joins first)
      (hsecond : ComposedWith L C .joins second) : ComposedWith L C .joins (first ++ second)
  | select {columns source : String} {body : QueryBody} {expansion : Expansion}
      {outer? : Option Relation} (hcolumns : IsOutput L columns) (hsource : IsSource L source)
      (hbody : ∀ place ∈ Harvest.places.clauses body, L place)
      (hjoins : ComposedWith L C .joins expansion.joins)
      (hfilter : ∀ text ∈ expansion.filter, ComposedWith L C .condition text)
      (hhaving : ∀ text ∈ expansion.having, ComposedWith L C .condition text)
      (houter : ∀ relation ∈ outer?, ∀ place ∈ relation.places, L place) :
      ComposedWith L C .select
        (selectStatement columns source body expansion ⟨none, outer?.map Sql.correlation⟩)

/-- All of the text is composed of places for which `L` holds. -/
abbrev Composed (L : Place → Prop) : Part → String → Prop := ComposedWith L (IsComparison L)

/-- The joins and conditions of a query, composed. -/
structure ComposedExpansion (L : Place → Prop) (expansion : Expansion) : Prop where
  joins : Composed L .joins expansion.joins
  filter : ∀ text ∈ expansion.filter, Composed L .condition text
  having : ∀ text ∈ expansion.having, Composed L .condition text

variable {L : Place → Prop} {catalog : Catalog}

/-- A statement is composed if its columns, its source, its clauses and its expansion are. The
correlation of a nested relation comes from the relation's own places. -/
theorem ComposedExpansion.select {expansion : Expansion} (h : ComposedExpansion L expansion)
    {columns source : String} {body : QueryBody} (hcolumns : IsOutput L columns)
    (hsource : IsSource L source) (hbody : ∀ place ∈ Harvest.places.clauses body, L place)
    (outer? : Option Relation) (houter : ∀ relation ∈ outer?, ∀ place ∈ relation.places, L place) :
    Composed L .select
      (selectStatement columns source body expansion ⟨none, outer?.map Sql.correlation⟩) :=
  .select hcolumns hsource hbody h.joins h.filter h.having houter

/-- If it compiles, it compiles to texts of this kind. -/
def ComposedIfOk (L : Place → Prop) (part : Part) (clausal : Clausal) : Prop :=
  ∀ texts, clausal = .ok texts → ∀ text ∈ texts, Composed L part text

/-! ## Lists of texts -/

namespace ComposedIfOk

variable {part : Part}

theorem nil : ComposedIfOk L part (.ok []) := by
  rintro _ ⟨⟩
  simp

theorem single {text : String} (h : Composed L part text) : ComposedIfOk L part (.ok [text]) := by
  rintro _ ⟨⟩
  simpa using h

theorem error (error : QueryError) : ComposedIfOk L part (.error error) := by
  rintro _ ⟨⟩

/-- Lists of texts that are compiled one after the other. -/
theorem append {own others : Clausal} (hown : ComposedIfOk L part own)
    (hothers : ComposedIfOk L part others) :
    ComposedIfOk L part (do return (← own) ++ (← others)) := by
  intro texts hok
  obtain ⟨first, hfirst, hok⟩ := exists_of_bind_eq_ok hok
  obtain ⟨second, hsecond, hok⟩ := exists_of_bind_eq_ok hok
  cases hok
  exact List.forall_mem_append.mpr ⟨hown first hfirst, hothers second hsecond⟩

/-- What is made of the texts is composed if it is for any such texts. -/
theorem map {other : Part} {clausal : Clausal} {f : List String → List String}
    (h : ComposedIfOk L part clausal)
    (hf : ∀ texts, (∀ text ∈ texts, Composed L part text) →
      ∀ text ∈ f texts, Composed L other text) :
    ComposedIfOk L other (f <$> clausal) := by
  intro texts hok
  obtain ⟨own, hown, rfl⟩ := exists_of_map_eq_ok hok
  exact hf own (h own hown)

/-- One item after the other. -/
theorem sequence {α : Type} {f : List α → Clausal} {g : α → Clausal} {items : List α}
    (hnil : f [] = .ok [])
    (hcons : ∀ item rest, f (item :: rest) = do return (← g item) ++ (← f rest))
    (h : ∀ item ∈ items, ComposedIfOk L part (g item)) : ComposedIfOk L part (f items) := by
  induction items with
  | nil =>
    rw [hnil]
    exact nil
  | cons item rest ih =>
    obtain ⟨hitem, hrest⟩ := List.forall_mem_cons.mp h
    rw [hcons]
    exact hitem.append (ih hrest)

end ComposedIfOk

/-- A group is composed of its branches, the empty ones left out. -/
theorem composed_groupClauses (connective : Connective) {branches : List String}
    (h : ∀ branch ∈ branches, Composed L .condition branch) :
    ∀ clause ∈ groupClauses connective branches, Composed L .clause clause := by
  unfold groupClauses
  dsimp only
  split
  · simp
  · next hne =>
    rw [List.forall_mem_singleton]
    refine .group connective (by simpa using hne) (fun branch hbranch => ?_) fun branch hbranch =>
      ?_
    · simpa using (List.mem_filter.mp hbranch).2
    · exact h branch (List.mem_filter.mp hbranch).1

/-- A negation is composed of a condition. -/
theorem composed_negationClauses {text : String} (h : Composed L .condition text) :
    ∀ clause ∈ negationClauses text, Composed L .clause clause := by
  unfold negationClauses
  split
  · simp
  · next hne =>
    rw [List.forall_mem_singleton]
    exact .negation (by simpa using hne) h

/-- Existence tests together are one condition of theirs. -/
theorem composed_existenceClauses {tests : List String}
    (h : ∀ test ∈ tests, Composed L (.rows "EXISTS") test) :
    ∀ clause ∈ existenceClauses tests, Composed L .clause clause := by
  unfold existenceClauses
  split
  · simp
  · next hne =>
    rw [List.forall_mem_singleton]
    exact .existence (by simpa using hne) h

/-- The clauses of entries are composed if those of each entry are. -/
theorem composed_gather {entries : Entries String Clausal}
    (h : ∀ entry ∈ entries, ComposedIfOk L .clause entry.2) :
    ComposedIfOk L .clause (gather entries) :=
  .sequence (f := gather) (g := Prod.snd) rfl (fun _ _ => rfl) h

/-- Laying levels over each other takes entries away and makes none, so the condition is composed of
clauses that were there. -/
theorem composed_overlayText {levels : List (Entries String Clausal)}
    (h : ∀ entries ∈ levels, ∀ entry ∈ entries, ComposedIfOk L .clause entry.2)
    {text? : Option String} (hok : overlayText levels = .ok text?) :
    ∀ text ∈ text?, Composed L .condition text := by
  cases levels with
  | nil =>
    cases hok
    simp
  | cons first rest =>
    obtain ⟨clauses, hclauses, rfl⟩ := exists_of_map_eq_ok hok
    have hmerged : ∀ entry ∈ rest.foldl Entries.merge first, ComposedIfOk L .clause entry.2 := by
      intro entry hentry
      obtain ⟨layer, hlayer, hentry⟩ := Entries.exists_of_mem_foldl_merge hentry
      exact h layer hlayer entry hentry
    rintro _ ⟨⟩
    exact .condition .and (composed_gather hmerged clauses hclauses)

/-! ## Statements -/

/-- The columns of a body, under another select list and with columns for nested relations. -/
theorem places_outputColumns {body : QueryBody}
    (hbody : ∀ place ∈ Harvest.places.clauses body, L place) {select : Columns}
    (hselect : ∀ place ∈ Harvest.places.columns select, L place) {nested : List String}
    (hnested : ∀ name ∈ nested, L (.name name)) :
    ∀ place ∈ Harvest.places.columns (body.outputColumns select nested), L place := by
  intro place hplace
  obtain ⟨⟨name, column⟩, hentry, hplace⟩ := List.mem_flatMap.mp hplace
  rcases body.mem_outputColumns hentry with hentry | ⟨other, hother, heq⟩ | ⟨join, hjoin, hentry⟩
  · exact hselect place (List.mem_flatMap.mpr ⟨_, hentry, hplace⟩)
  · cases heq
    obtain rfl : place = .name name := List.mem_singleton.mp hplace
    exact hnested name hother
  · refine hbody place (List.mem_append_right _ (List.mem_flatMap.mpr ⟨_, hjoin, ?_⟩))
    exact List.mem_append_right _ (List.mem_flatMap.mpr ⟨_, hentry, hplace⟩)

/-- The clauses of a body are places of the body. -/
theorem places_clauses {body : QueryBody} (h : ∀ place ∈ Harvest.places.body body, L place) :
    ∀ place ∈ Harvest.places.clauses body, L place := by
  obtain ⟨⟩ := body
  rw [Harvest.body, List.forall_mem_append, List.forall_mem_append] at h
  exact h.1.1

theorem places_select {body : QueryBody} (hbody : ∀ place ∈ Harvest.places.clauses body, L place) :
    ∀ place ∈ Harvest.places.columns body.select, L place := fun place hplace =>
  hbody place (by simp [Harvest.clauses, hplace])

/-- What `L` has to hold of besides the places of a descriptor: those of the catalog, and the column
that existence tests select. -/
structure Supplies (L : Place → Prop) (catalog : Catalog) : Prop where
  catalog : ∀ place ∈ catalog.places, L place
  one : L (.name "1")

section

variable (hL : Supplies L catalog)

include hL

/-- A relation of the catalog brings its own places. -/
theorem Supplies.relation {name : String} {relation : Relation}
    (h : catalog.resolve name = .ok relation) : ∀ place ∈ relation.places, L place :=
  fun place hplace => hL.catalog place (Catalog.places_of_resolve h hplace)

/-- A join is composed of the places of its relation. -/
theorem composed_joinsText {joins : List (JoinKind × String × JoinQuery)} {text : String}
    (hok : joinsText catalog joins = .ok text) : Composed L .joins text := by
  obtain ⟨pieces, hpieces, htext⟩ := exists_of_bind_eq_ok hok
  clear hok
  cases htext
  induction joins generalizing pieces with
  | nil =>
    cases hpieces
    exact .noJoins
  | cons join rest ih =>
    obtain ⟨kind, name, join⟩ := join
    rw [List.mapM_cons] at hpieces
    obtain ⟨piece, hpiece, hpieces⟩ := exists_of_bind_eq_ok hpieces
    obtain ⟨others, hothers, hpieces⟩ := exists_of_bind_eq_ok hpieces
    obtain ⟨relation, hrelation, hpiece⟩ := exists_of_bind_eq_ok hpiece
    cases hpieces
    cases hpiece
    rw [String.join_cons]
    exact .joins (.join kind (hL.relation hrelation)) (ih others hothers)

/-- A subquery, once its conditions are known to be composed. -/
theorem composed_subQueryText {kind : SubQueryKind} {name : String} {table? : Option String}
    {body : QueryBody} {place : SubQueryPlace} {expansion : Expansion}
    (hplace : subQueryPlace catalog name table? = .ok place)
    (htable : ∀ place ∈ Harvest.places.place kind name table? body, L place)
    (hbody : ∀ place ∈ Harvest.places.clauses body, L place)
    (hexpansion : ComposedExpansion L expansion) :
    Composed L (.rows kind.keyword) (subQueryText kind place body expansion) := by
  have hselect : ∀ place ∈ Harvest.places.columns (kind.select body.select), L place := by
    cases kind with
    | existence => simpa [SubQueryKind.select, Harvest.columns, Harvest.places] using hL.one
    | rows keyword => exact places_select hbody
  have hcolumns : IsOutput L (body.outputColumns (kind.select body.select) []).selectList :=
    .list (places_outputColumns hbody hselect (by simp))
  cases table? with
  | some table =>
    cases hplace
    have hsource : IsSource L (Sql.tableRef table none) :=
      .table (htable (.name table) (by simp [Harvest.place, Harvest.places])) (by simp)
    exact .rows _ (hexpansion.select hcolumns hsource hbody none (by simp)) (Or.inl rfl)
  | none =>
    obtain ⟨relation, hrelation, hplace⟩ := exists_of_bind_eq_ok hplace
    cases hplace
    have hplaces := hL.relation hrelation
    refine .rows _ (hexpansion.select hcolumns (.relation hplaces) hbody (some relation)
      (by simpa using hplaces)) ?_
    dsimp only
    split
    · exact Or.inr rfl
    · exact Or.inl rfl

theorem composed_subQueryTexts (kind : SubQueryKind) {name : String} {query : SubQuery}
    (htable : ∀ place ∈ Harvest.places.place kind name query.table query.body, L place)
    (hbody : ∀ place ∈ Harvest.places.body query.body, L place)
    (hexpansion : ∀ expansion, expandBody catalog query.body = .ok expansion →
      ComposedExpansion L expansion) :
    ComposedIfOk L (.rows kind.keyword) (subQueryTexts catalog kind (name, query)) := by
  intro texts hok
  obtain ⟨place, hplace, hok⟩ := exists_of_bind_eq_ok hok
  obtain ⟨expansion, hexpand, hok⟩ := exists_of_bind_eq_ok hok
  cases hok
  rw [List.forall_mem_singleton]
  exact composed_subQueryText hL hplace htable (places_clauses hbody) (hexpansion expansion hexpand)

omit hL in
/-- The two bounds of a range are values of its operand. -/
theorem composed_rangeClauses {field : String} {operator : Operator} {operand : Operand}
    (hrange : operator.isRange = true) (hfield : L (.name field))
    (hoperand : ∀ place ∈ Harvest.places.operand field operator operand, L place) :
    ComposedIfOk L .clause (rangeClauses field operator operand) := by
  unfold rangeClauses
  split
  · next low high hvalues =>
    have hbounds : L (.value (.array [low, high])) := by
      refine hoperand _ ?_
      unfold Operand.values? at hvalues
      split at hvalues
      · cases hvalues
        simp [Harvest.operand, Harvest.places]
      · cases hvalues
        simp [Harvest.operand, Harvest.places]
      · cases hvalues
    exact .single (.comparison (.range hfield hbounds hrange))
  · exact .error _

omit hL in
/-- The operand of an operator, once the rows of its subqueries are known to be composed. -/
theorem composed_operandClauses {field : String} {operator : Operator} {operand : Operand}
    (hoperand : ∀ place ∈ Harvest.places.operand field operator operand, L place)
    (hqueries : ∀ queries, operand = .subqueries queries →
      ComposedIfOk L (.rows operator.sql) (rowsTexts catalog operator.sql queries))
    (hgroups : ∀ groups, operand = .quantified groups →
      ∀ texts, quantifiedTexts catalog groups = .ok texts →
        ∀ text ∈ texts, ∃ quantifier : Quantifier, Composed L (.rows quantifier.sql) text) :
    ComposedIfOk L .clause (operandClauses catalog field operator operand) := by
  -- whatever the operand, the column is written before it
  have hfield : L (.name field) := by
    refine hoperand _ ?_
    cases operand <;> simp [Harvest.operand, Harvest.places]
  unfold operandClauses
  split
  · next hmembership =>
    have hrange : operator.isRange = false := by cases operator <;> first | rfl | cases hmembership
    split
    · next items =>
      exact .single
        (.comparison (.list hfield (hoperand _ (by simp [Harvest.operand, Harvest.places])) hrange))
    · next items =>
      exact .single
        (.comparison (.list hfield (hoperand _ (by simp [Harvest.operand, Harvest.places])) hrange))
    · -- each subquery is a clause of its own, with the column in front
      next queries =>
      refine (hqueries queries rfl).map fun texts htexts text htext => ?_
      obtain ⟨rows, hrows, rfl⟩ := List.mem_map.mp htext
      exact .member hfield hmembership (htexts rows hrows)
    · exact .error _
  · next hmembership =>
    rw [Bool.not_eq_true] at hmembership
    split
    · next hrange => exact composed_rangeClauses hrange hfield hoperand
    · next hrange =>
      rw [Bool.not_eq_true] at hrange
      split
      · next value =>
        exact .single
          (.comparison (.value hfield (hoperand _ (by simp [Harvest.operand, Harvest.places]))
          hmembership hrange))
      · next items =>
        exact .single (.comparison
          (.list hfield (hoperand _ (by simp [Harvest.operand, Harvest.places])) hrange))
      · next groups =>
        -- the keyword of a quantified subquery depends on its group, so it comes with the text
        intro clauses hok
        obtain ⟨texts, htexts, rfl⟩ := exists_of_map_eq_ok hok
        intro clause hclause
        obtain ⟨rows, hrows, rfl⟩ := List.mem_map.mp hclause
        obtain ⟨quantifier, hrows⟩ := hgroups groups rfl texts htexts rows hrows
        exact .quantified hfield hmembership hrange hrows
      · exact .error _

end

/-! ## The compiler -/

mutual

/-- The induction follows the compiler. In each case the places of a part are places of the whole,
and the text is one of the kinds that `ComposedWith` lists. -/
theorem composed_entryClauses (hL : Supplies L catalog) :
    ∀ entries : List (String × Condition),
      (∀ place ∈ Harvest.all (Harvest.places.entries entries), L place) →
        ∀ entry ∈ entryClauses catalog entries, ComposedIfOk L .clause entry.2
  | [], _ => by simp [entryClauses]
  | (field, condition) :: rest, h => by
    rw [Harvest.entries, Harvest.all_cons, List.forall_mem_append] at h
    rw [entryClauses, List.forall_mem_cons]
    exact ⟨composed_conditionClauses hL condition h.1, composed_entryClauses hL rest h.2⟩

theorem composed_conditionClauses {field : String} (hL : Supplies L catalog) :
    ∀ condition : Condition, (∀ place ∈ Harvest.places.condition field condition, L place) →
      ComposedIfOk L .clause (conditionClauses catalog field condition)
  | .anyOf branches, h => by
    rw [conditionClauses]
    exact (composed_branchTexts hL branches h).map fun _ => composed_groupClauses .or
  | .allOf branches, h => by
    rw [conditionClauses]
    exact (composed_branchTexts hL branches h).map fun _ => composed_groupClauses .and
  | .negation (.ofEntries entries), h => by
    rw [conditionClauses]
    exact (composed_gather (composed_entryClauses hL entries h)).map fun _ hclauses =>
      composed_negationClauses (.condition .and hclauses)
  | .existence entries, h => by
    rw [conditionClauses]
    exact (composed_existenceTexts hL entries h).map fun _ => composed_existenceClauses
  | .equals value, h => by
    rw [conditionClauses]
    rw [Harvest.condition, List.forall_mem_append] at h
    rw [← comparisonText_equals]
    exact .single (.comparison
      (.value (h.1 _ (List.mem_singleton_self _)) (h.2 _ (List.mem_singleton_self _)) rfl rfl))
  | .comparisons entries, h => by
    rw [conditionClauses]
    exact composed_comparisonsClauses hL entries h

theorem composed_branchTexts {connective : Connective} (hL : Supplies L catalog) :
    ∀ branches : List Predicate, (∀ place ∈ Harvest.places.branches branches, L place) →
      ComposedIfOk L .condition (branchTexts catalog connective branches)
  | [], _ => by
    rw [branchTexts]
    exact .nil
  | .ofEntries entries :: rest, h => by
    rw [Harvest.branches, List.forall_mem_append] at h
    rw [branchTexts]
    intro texts hok
    obtain ⟨clauses, hclauses, hok⟩ := exists_of_bind_eq_ok hok
    obtain ⟨others, hothers, hok⟩ := exists_of_bind_eq_ok hok
    cases hok
    have hbranch := composed_gather (composed_entryClauses hL entries h.1) clauses hclauses
    exact List.forall_mem_cons.mpr
      ⟨.condition connective hbranch, composed_branchTexts hL rest h.2 others hothers⟩

theorem composed_existenceTexts (hL : Supplies L catalog) :
    ∀ entries : List (String × ExistsBody), (∀ place ∈ Harvest.places.existence entries, L place) →
      ComposedIfOk L (.rows "EXISTS") (existenceTexts catalog entries)
  | [], _ => by
    rw [existenceTexts]
    exact .nil
  | (name, .anyRow) :: rest, h => by
    rw [Harvest.existence, List.forall_mem_append] at h
    rw [existenceTexts_cons]
    refine .append (composed_subQueryTexts hL .existence h.1 ?_ ?_)
      (composed_existenceTexts hL rest h.2)
    · simp [ExistsBody.toSubQuery, SubQuery.empty, QueryBody.empty, Harvest.body, Harvest.clauses,
        Harvest.columns, Harvest.bound, Harvest.filter, Harvest.joinFilters, Harvest.places,
        QueryBody.joins]
    · rintro _ ⟨⟩
      exact ⟨.noJoins, by simp, by simp⟩
  | (name, .rowsOf ⟨table?, body⟩) :: rest, h => by
    rw [Harvest.existence, List.forall_mem_append, List.forall_mem_append] at h
    rw [existenceTexts_cons]
    exact .append
      (composed_subQueryTexts hL .existence h.1.1 h.1.2 (composed_expandBody hL body h.1.2))
      (composed_existenceTexts hL rest h.2)

theorem composed_comparisonsClauses {field : String} (hL : Supplies L catalog) :
    ∀ entries : List (Operator × Operand),
      (∀ place ∈ Harvest.places.comparisons field entries, L place) →
      ComposedIfOk L .clause (comparisonsClauses catalog field entries)
  | [], _ => by
    rw [comparisonsClauses]
    exact .nil
  | (operator, .value value) :: rest, h => by
    rw [Harvest.comparisons, List.forall_mem_append] at h
    rw [comparisonsClauses]
    exact .append (composed_operandClauses h.1 (by simp) (by simp))
      (composed_comparisonsClauses hL rest h.2)
  | (operator, .list items) :: rest, h => by
    rw [Harvest.comparisons, List.forall_mem_append] at h
    rw [comparisonsClauses]
    exact .append (composed_operandClauses h.1 (by simp) (by simp))
      (composed_comparisonsClauses hL rest h.2)
  | (operator, .subqueries queries) :: rest, h => by
    rw [Harvest.comparisons, List.forall_mem_append] at h
    rw [comparisonsClauses]
    refine .append (composed_operandClauses h.1 ?_ (by simp))
      (composed_comparisonsClauses hL rest h.2)
    rintro _ ⟨⟩
    exact composed_rowsTexts hL queries (List.forall_mem_append.mp h.1).2
  | (operator, .quantified groups) :: rest, h => by
    rw [Harvest.comparisons, List.forall_mem_append] at h
    rw [comparisonsClauses]
    refine .append (composed_operandClauses h.1 (by simp) ?_)
      (composed_comparisonsClauses hL rest h.2)
    rintro _ ⟨⟩
    exact composed_quantifiedTexts hL groups (List.forall_mem_append.mp h.1).2

theorem composed_quantifiedTexts (hL : Supplies L catalog) :
    ∀ groups : List (Quantifier × List (String × SubQuery)),
      (∀ place ∈ Harvest.places.quantified groups, L place) →
        ∀ texts, quantifiedTexts catalog groups = .ok texts →
          ∀ text ∈ texts, ∃ quantifier : Quantifier, Composed L (.rows quantifier.sql) text
  | [], _, _, hok => by
    cases hok
    simp
  | (quantifier, queries) :: rest, h, _, hok => by
    rw [Harvest.quantified, List.forall_mem_append] at h
    rw [quantifiedTexts] at hok
    obtain ⟨own, hown, hok⟩ := exists_of_bind_eq_ok hok
    obtain ⟨others, hothers, hok⟩ := exists_of_bind_eq_ok hok
    cases hok
    refine List.forall_mem_append.mpr ⟨fun text htext => ?_, ?_⟩
    · exact ⟨quantifier, composed_rowsTexts hL queries h.1 own hown text htext⟩
    · exact composed_quantifiedTexts hL rest h.2 others hothers

theorem composed_rowsTexts {keyword : String} (hL : Supplies L catalog) :
    ∀ queries : List (String × SubQuery),
      (∀ place ∈ Harvest.places.subqueries keyword queries, L place) →
      ComposedIfOk L (.rows keyword) (rowsTexts catalog keyword queries)
  | [], _ => by
    rw [rowsTexts]
    exact .nil
  | (name, ⟨table?, body⟩) :: rest, h => by
    rw [Harvest.subqueries, List.forall_mem_append, List.forall_mem_append] at h
    rw [rowsTexts_cons]
    exact .append (composed_subQueryTexts hL (.rows keyword) h.1.1 h.1.2
      (composed_expandBody hL body h.1.2)) (composed_rowsTexts hL rest h.2)

/-- The conditions of joins are laid over the body's own before they are compiled, and both come
from places of the body. -/
theorem composed_expandBody (hL : Supplies L catalog) :
    ∀ body : QueryBody, (∀ place ∈ Harvest.places.body body, L place) →
      ∀ expansion, expandBody catalog body = .ok expansion → ComposedExpansion L expansion
  | ⟨select, filter, groupBy, having, orderBy, limit, offset, left, right, inner, full⟩, h,
    _, hok => by
    rw [Harvest.body, List.forall_mem_append, List.forall_mem_append] at h
    have hlevel : ∀ levels, Harvest.places.level levels = levels.flatMap Harvest.all := fun _ => rfl
    simp only [hlevel, List.flatMap_append, List.forall_mem_append] at h
    obtain ⟨⟨-, ⟨⟨⟨hfilter, hleft⟩, hright⟩, hinner⟩, hfull⟩, hhaving⟩ := h
    rw [expandBody] at hok
    obtain ⟨joins, hjoins, hok⟩ := exists_of_bind_eq_ok hok
    obtain ⟨filter?, hfilter?, hok⟩ := exists_of_bind_eq_ok hok
    obtain ⟨having?, hhaving?, hok⟩ := exists_of_bind_eq_ok hok
    cases hok
    refine ⟨composed_joinsText hL hjoins, composed_overlayText ?_ hfilter?,
      composed_overlayText (composed_filterClauses hL having hhaving) hhaving?⟩
    simp only [List.forall_mem_append]
    exact ⟨⟨⟨⟨composed_filterClauses hL filter hfilter, composed_joinFilters hL left hleft⟩,
      composed_joinFilters hL right hright⟩, composed_joinFilters hL inner hinner⟩,
      composed_joinFilters hL full hfull⟩

theorem composed_filterClauses (hL : Supplies L catalog) :
    ∀ filter : Option Predicate,
      (∀ place ∈ (Harvest.places.filter filter).flatMap Harvest.all, L place) →
        ∀ entries ∈ filterClauses catalog filter, ∀ entry ∈ entries, ComposedIfOk L .clause entry.2
  | none, _ => by simp [filterClauses]
  | some (.ofEntries entries), h => by
    rw [Harvest.filter, List.flatMap_singleton] at h
    rw [filterClauses, List.forall_mem_singleton]
    exact composed_entryClauses hL entries h

theorem composed_joinFilters (hL : Supplies L catalog) :
    ∀ joins : List (String × JoinQuery),
      (∀ place ∈ (Harvest.places.joinFilters joins).flatMap Harvest.all, L place) →
        ∀ entries ∈ joinFilters catalog joins, ∀ entry ∈ entries, ComposedIfOk L .clause entry.2
  | [], _ => by simp [joinFilters]
  | (_, ⟨_, filter⟩) :: rest, h => by
    rw [Harvest.joinFilters, List.flatMap_append, List.forall_mem_append] at h
    rw [joinFilters, List.forall_mem_append]
    exact ⟨composed_filterClauses hL filter h.1, composed_joinFilters hL rest h.2⟩

end

/-! ## Queries -/

/-- The text of a predicate. -/
theorem composed_predicate (hL : Supplies L catalog) {predicate : Predicate}
    (h : ∀ place ∈ Harvest.places.predicate predicate, L place) {connective : Connective}
    {text : String} (hok : predicate.toSql catalog connective = .ok text) :
    Composed L .condition text := by
  obtain ⟨clauses, hclauses, rfl⟩ := exists_of_map_eq_ok hok
  exact .condition connective (composed_gather (composed_entryClauses hL _ h) clauses hclauses)

/-- The names of nested relations are places, as they are written as columns. -/
theorem places_nested {includes : List (String × SelectQuery)}
    (h : ∀ place ∈ Harvest.places.includes includes, L place) :
    ∀ name ∈ Entries.keys includes, L (.name name) := by
  induction includes with
  | nil => simp [Entries.keys]
  | cons entry rest ih =>
    obtain ⟨name, query⟩ := entry
    rw [Harvest.includes, List.forall_mem_append, List.forall_mem_append] at h
    exact List.forall_mem_cons.mpr ⟨h.1.1 _ List.mem_cons_self, ih h.2⟩

/-- The columns of a query, with those of its nested relations. -/
theorem places_queryColumns {query : SelectQuery}
    (h : ∀ place ∈ Harvest.places.query query, L place) :
    ∀ place ∈ Harvest.places.columns query.outputColumns, L place := by
  obtain ⟨body, includes⟩ := query
  rw [Harvest.query, List.forall_mem_append] at h
  have hbody := places_clauses h.2
  exact places_outputColumns hbody (places_select hbody) (places_nested h.1)

mutual

/-- A nested relation is one more join, composed of the SELECT over its rows. -/
theorem composed_expand (hL : Supplies L catalog) :
    ∀ query : SelectQuery, (∀ place ∈ Harvest.places.query query, L place) →
      ∀ expansion, query.expand catalog = .ok expansion → ComposedExpansion L expansion
  | .mk body includes, h, _, hok => by
    rw [Harvest.query, List.forall_mem_append] at h
    rw [SelectQuery.expand] at hok
    obtain ⟨laterals, hlaterals, hok⟩ := exists_of_bind_eq_ok hok
    obtain ⟨expansion, hexpansion, hok⟩ := exists_of_bind_eq_ok hok
    cases hok
    have hown := composed_expandBody hL body h.2 expansion hexpansion
    exact ⟨.joins (composed_includesText hL includes h.1 laterals hlaterals) hown.joins,
      hown.filter,
      hown.having⟩

theorem composed_includesText (hL : Supplies L catalog) :
    ∀ includes : List (String × SelectQuery),
      (∀ place ∈ Harvest.places.includes includes, L place) →
      ∀ text, includesText catalog includes = .ok text → Composed L .joins text
  | [], _, _, hok => by
    cases hok
    exact .noJoins
  | (name, query) :: rest, h, _, hok => by
    rw [Harvest.includes, List.forall_mem_append, List.forall_mem_append] at h
    obtain ⟨⟨hnested, hquery⟩, hrest⟩ := h
    rw [includesText] at hok
    obtain ⟨relation, hrelation, hok⟩ := exists_of_bind_eq_ok hok
    obtain ⟨expansion, hexpansion, hok⟩ := exists_of_bind_eq_ok hok
    obtain ⟨others, hothers, hok⟩ := exists_of_bind_eq_ok hok
    cases hok
    have hplaces := hL.relation hrelation
    have hkey : L (.name name) := hnested _ List.mem_cons_self
    have hkeys : ∀ column ∈ Entries.keys query.outputColumns, L (.part column) :=
      fun column hcolumn =>
      hnested _ (List.mem_cons_of_mem _ (List.mem_map_of_mem hcolumn))
    have hbody : ∀ place ∈ Harvest.places.clauses query.body, L place := by
      obtain ⟨body, includes⟩ := query
      exact places_clauses (List.forall_mem_append.mp hquery).2
    have hselect := (composed_expand hL query hquery expansion hexpansion).select
      (.object hkey (places_queryColumns hquery) hkeys) (.relation hplaces) hbody
      (some relation) (by simpa using hplaces)
    rw [nestedStatement_eq]
    exact .joins (.lateral relation hkey hselect)
      (composed_includesText hL rest hrest others hothers)

end

/-- A query over a table. -/
theorem composed_toSql (hL : Supplies L catalog) {query : SelectQuery}
    (h : ∀ place ∈ Harvest.places.query query, L place) {table : String} {alias? : Option String}
    (htable : L (.name table)) (halias : ∀ name ∈ alias?, L (.name name)) {sql : String}
    (hok : query.toSql catalog table alias? {} = .ok sql) : Composed L .select sql := by
  obtain ⟨expansion, hexpansion, hsql⟩ := exists_of_bind_eq_ok hok
  rw [← Except.ok.inj hsql]
  have hbody : ∀ place ∈ Harvest.places.clauses query.body, L place := by
    obtain ⟨body, includes⟩ := query
    exact places_clauses (List.forall_mem_append.mp h).2
  have hcolumns : IsOutput L query.outputColumns.selectList := .list (places_queryColumns h)
  have hsource : IsSource L (Sql.tableRef table alias?) := .table htable halias
  have hselect := (composed_expand hL query h expansion hexpansion).select hcolumns hsource hbody
    none (by simp)
  exact hselect

end DescriptorSql
