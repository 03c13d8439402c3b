import DescriptorSql.Proofs.Compile.Connectives

/-!
# `Proofs/Compile/Pruning.lean` — leaving out what says nothing

A predicate may have parts that demand nothing: groups and branches without conditions, operators
over no subquery, negations and existence tests of nothing. `Predicate.prune` leaves them out, at
whatever depth, and what is left has none (`Predicate.isTight_prune`). It is compiled as the whole
predicate is, to the same text or with the same error (`Predicate.IsRead.prunable`): a part that
demands nothing has no clause, and it has no error that could come before that of another part.

The latter takes a predicate that was read. One that was put together in some other way may have an
operator with an operand that it cannot be written with, and that is an error even if there is no
subquery in the operand.

A subquery that joins something stays as it is. The conditions of its joins are laid over its own,
key by key, and there an entry that demands nothing does make a difference: it takes the place of
one that does.
-/

set_option autoImplicit false

namespace DescriptorSql

/-! ## Pruning -/

mutual

/-- The entries that demand something, with what demands nothing left out inside them as well. -/
def pruneEntries : List (String × Condition) → List (String × Condition)
  | [] => []
  | (field, condition) :: rest =>
    if condition.hasAtom then (field, condition.prune) :: pruneEntries rest else pruneEntries rest

def Condition.prune : Condition → Condition
  | .anyOf branches => .anyOf (pruneBranches branches)
  | .allOf branches => .allOf (pruneBranches branches)
  | .negation (.ofEntries entries) => .negation (.ofEntries (pruneEntries entries))
  | .existence entries => .existence (pruneExistence entries)
  | .equals value => .equals value
  | .comparisons entries => .comparisons (pruneComparisons entries)

def pruneBranches : List Predicate → List Predicate
  | [] => []
  | .ofEntries entries :: rest =>
    if entriesHaveAtom entries then .ofEntries (pruneEntries entries) :: pruneBranches rest
    else pruneBranches rest

def pruneExistence : List (String × ExistsBody) → List (String × ExistsBody)
  | [] => []
  | (name, body) :: rest => (name, body.prune) :: pruneExistence rest

def ExistsBody.prune : ExistsBody → ExistsBody
  | .anyRow => .anyRow
  | .rowsOf query => .rowsOf query.prune

def pruneComparisons : List (Operator × Operand) → List (Operator × Operand)
  | [] => []
  | (operator, operand) :: rest =>
    if operand.hasAtom then (operator, operand.prune) :: pruneComparisons rest
    else pruneComparisons rest

def Operand.prune : Operand → Operand
  | .value value => .value value
  | .list items => .list items
  | .subqueries queries => .subqueries (pruneQueries queries)
  | .quantified groups => .quantified (pruneGroups groups)

def pruneGroups :
    List (Quantifier × List (String × SubQuery)) → List (Quantifier × List (String × SubQuery))
  | [] => []
  | (quantifier, queries) :: rest =>
    if queries.isEmpty then pruneGroups rest
    else (quantifier, pruneQueries queries) :: pruneGroups rest

def pruneQueries : List (String × SubQuery) → List (String × SubQuery)
  | [] => []
  | (name, query) :: rest => (name, query.prune) :: pruneQueries rest

def SubQuery.prune : SubQuery → SubQuery
  | ⟨table?, body⟩ => ⟨table?, body.prune⟩

/-- The conditions of a body are pruned only if nothing is laid over them. -/
def QueryBody.prune : QueryBody → QueryBody
  | ⟨select, filter, groupBy, having, orderBy, limit, offset, [], [], [], []⟩ =>
    ⟨select, pruneFilter filter, groupBy, pruneFilter having, orderBy, limit, offset,
      [], [], [], []⟩
  | body => body

def pruneFilter : Option Predicate → Option Predicate
  | none => none
  | some (.ofEntries entries) =>
    if entriesHaveAtom entries then some (.ofEntries (pruneEntries entries)) else none

end

/-- The predicate without its parts that demand nothing. -/
def Predicate.prune : Predicate → Predicate
  | .ofEntries entries => .ofEntries (pruneEntries entries)

/-! ## Pruning list by list -/

/-- Pruning entries leaves out those without an atom and prunes the others. The lemmas behind this
one say the same of the other lists. -/
theorem pruneEntries_eq (entries : List (String × Condition)) :
    pruneEntries entries =
      (entries.filter fun entry => entry.2.hasAtom).map fun entry => (entry.1, entry.2.prune) := by
  induction entries with
  | nil => rfl
  | cons entry rest ih =>
    obtain ⟨field, condition⟩ := entry
    rw [pruneEntries, ih, List.filter_cons]
    split <;> rfl

theorem pruneBranches_eq (branches : List Predicate) :
    pruneBranches branches = (branches.filter Predicate.hasAtom).map Predicate.prune := by
  induction branches with
  | nil => rfl
  | cons branch rest ih =>
    obtain ⟨entries⟩ := branch
    rw [pruneBranches, ih, List.filter_cons, Predicate.hasAtom]
    split <;> rfl

theorem pruneComparisons_eq (entries : List (Operator × Operand)) :
    pruneComparisons entries =
      (entries.filter fun entry => entry.2.hasAtom).map fun entry => (entry.1, entry.2.prune) := by
  induction entries with
  | nil => rfl
  | cons entry rest ih =>
    obtain ⟨operator, operand⟩ := entry
    rw [pruneComparisons, ih, List.filter_cons]
    split <;> rfl

theorem pruneQueries_eq (queries : List (String × SubQuery)) :
    pruneQueries queries = queries.map fun entry => (entry.1, entry.2.prune) := by
  induction queries with
  | nil => rfl
  | cons entry rest ih => rw [pruneQueries, ih, List.map_cons]

/-- A quantifier is left out only if no subquery is behind it: a subquery without conditions is
still one. -/
theorem pruneGroups_eq (groups : List (Quantifier × List (String × SubQuery))) :
    pruneGroups groups =
      (groups.filter fun group => !group.2.isEmpty).map fun group =>
      (group.1, pruneQueries group.2) := by
  induction groups with
  | nil => rfl
  | cons group rest ih =>
    obtain ⟨quantifier, queries⟩ := group
    rw [pruneGroups, ih, List.filter_cons]
    cases queries <;> rfl

/-- No existence test is left out, since having a row is a demand of its own. -/
theorem pruneExistence_eq (entries : List (String × ExistsBody)) :
    pruneExistence entries = entries.map fun entry => (entry.1, entry.2.prune) := by
  induction entries with
  | nil => rfl
  | cons entry rest ih => rw [pruneExistence, ih, List.map_cons]

theorem ExistsBody.toSubQuery_prune (body : ExistsBody) :
    body.prune.toSubQuery = body.toSubQuery.prune := by
  cases body with
  | anyRow =>
    simp [prune, toSubQuery, SubQuery.empty, SubQuery.prune, QueryBody.empty, QueryBody.prune,
      pruneFilter]
  | rowsOf query => rw [ExistsBody.prune, toSubQuery, toSubQuery]

/-- Of entries that demand nothing, nothing is left. -/
theorem pruneEntries_eq_nil {entries : List (String × Condition)}
    (h : entriesHaveAtom entries = false) :
    pruneEntries entries = [] := by
  induction entries with
  | nil => rfl
  | cons entry rest ih =>
    obtain ⟨field, condition⟩ := entry
    rw [entriesHaveAtom, Bool.or_eq_false_iff] at h
    rw [pruneEntries, if_neg (by simp [h.1]), ih h.2]

theorem pruneBranches_eq_nil {branches : List Predicate} (h : branchesHaveAtom branches = false) :
    pruneBranches branches = [] := by
  induction branches with
  | nil => rfl
  | cons branch rest ih =>
    obtain ⟨entries⟩ := branch
    rw [branchesHaveAtom, Bool.or_eq_false_iff] at h
    rw [pruneBranches, if_neg (by simp [h.1]), ih h.2]

theorem pruneComparisons_eq_nil {entries : List (Operator × Operand)}
    (h : (Condition.comparisons entries).hasAtom = false) : pruneComparisons entries = [] := by
  rw [pruneComparisons_eq, List.map_eq_nil_iff, List.filter_eq_nil_iff]
  exact List.any_eq_false.mp h

/-! ## Lists with items left out -/

/-- One item more is one step of the compiler more. -/
theorem flatMap_mapM_cons {α ρ : Type} (texts : ρ → List String)
    (g : α → Except QueryError ρ) (item : α) (rest : List α) :
    List.flatMap texts <$> (item :: rest).mapM g = do
      return texts (← g item) ++ (← List.flatMap texts <$> rest.mapM g) := by
  rw [List.mapM_cons]
  cases g item with
  | error error => rfl
  | ok own => cases rest.mapM g <;> rfl

/-- Items that are left out if nothing comes of them, and else changed. -/
theorem flatMap_mapM_filter {α β ρ : Type} (texts : ρ → List String) {f : β → Except QueryError ρ}
    {g : α → Except QueryError ρ} {keep : α → Bool} {change : α → β} {items : List α}
    (hkeep : ∀ item ∈ items, keep item = true → f (change item) = g item)
    (hdrop : ∀ item ∈ items, keep item = false → texts <$> g item = .ok []) :
    List.flatMap texts <$> ((items.filter keep).map change).mapM f =
      List.flatMap texts <$> items.mapM g := by
  induction items with
  | nil => rfl
  | cons item rest ih =>
    obtain ⟨hitem, hrest⟩ := List.forall_mem_cons.mp hkeep
    obtain ⟨hnothing, hnothings⟩ := List.forall_mem_cons.mp hdrop
    rw [flatMap_mapM_cons, ← ih hrest hnothings, List.filter_cons]
    cases hkeeps : keep item with
    | true => rw [if_pos rfl, List.map_cons, flatMap_mapM_cons, hitem hkeeps]
    | false =>
      obtain ⟨nothing, hok, hnil⟩ := exists_of_map_eq_ok (hnothing hkeeps)
      rw [if_neg (by simp), hok]
      cases List.flatMap texts <$> ((rest.filter keep).map change).mapM f with
      | error error => rfl
      | ok others =>
        show _ = Except.ok (texts nothing ++ others)
        rw [hnil, List.nil_append]

/-- An item may be left out if it is compiled to no clause. If it failed, leaving it out would lose
its error. -/
theorem flatten_mapM_filter {α β : Type} {f : β → Clausal} {g : α → Clausal} {keep : α → Bool}
    {change : α → β} {items : List α}
    (hkeep : ∀ item ∈ items, keep item = true → f (change item) = g item)
    (hdrop : ∀ item ∈ items, keep item = false → g item = .ok []) :
    List.flatten <$> ((items.filter keep).map change).mapM f = List.flatten <$> items.mapM g := by
  have hflatten : (List.flatten : List (List String) → List String) = List.flatMap id := by
    funext lists
    exact List.flatten_eq_flatMap
  rw [hflatten]
  refine flatMap_mapM_filter id hkeep fun item hitem hdropped => ?_
  rw [hdrop item hitem hdropped]
  rfl

/-! ## Subqueries -/

/-- What a statement shows of an expansion. -/
def Expansion.shown (expansion : Expansion) : Expansion :=
  ⟨expansion.joins, Sql.present expansion.filter, Sql.present expansion.having⟩

/-- Dropping an empty text a second time changes nothing. -/
theorem Sql.present_present (text? : Option String) :
    Sql.present (Sql.present text?) = Sql.present text? := by
  simp [Sql.present, Option.filter_filter]

/-- A statement leaves out a condition that is empty, as if it were absent. -/
theorem selectStatement_shown (columns source : String) (body : QueryBody) (expansion : Expansion)
    (append : Sql.Append) :
    selectStatement columns source body expansion.shown append =
      selectStatement columns source body expansion append := by
  simp only [selectStatement, Expansion.shown, Sql.Clauses.toSql, Sql.Clauses.tokens,
    Sql.Clauses.filterTokens, Sql.Clauses.havingTokens, Sql.present_present,
    Sql.Clauses.orderTokens]

/-- A body with joins is left alone. In any other one both conditions are pruned. -/
theorem QueryBody.prune_cases (body : QueryBody) :
    body.joins ≠ [] ∧ body.prune = body ∨ body.joins = [] ∧
      body.prune =
        { body with filter := pruneFilter body.filter, having := pruneFilter body.having } := by
  rw [QueryBody.prune.eq_def]
  split
  · exact Or.inr ⟨rfl, rfl⟩
  · next hjoins =>
    refine Or.inl ⟨?_, rfl⟩
    intro h
    obtain ⟨select, filter, groupBy, having, orderBy, limit, offset, left, right, inner, full⟩ :=
      body
    simp only [joins, List.append_eq_nil_iff, List.map_eq_nil_iff] at h
    obtain ⟨⟨⟨rfl, rfl⟩, rfl⟩, rfl⟩ := h
    exact hjoins _ _ _ _ _ _ _ rfl

theorem subQueryText_prune (kind : SubQueryKind) (place : SubQueryPlace) (body : QueryBody)
    (expansion : Expansion) :
    subQueryText kind place body.prune expansion = subQueryText kind place body expansion := by
  rcases body.prune_cases with ⟨-, h⟩ | ⟨-, h⟩ <;> rw [h]
  rfl

section

variable {catalog : Catalog}

/-- Without the parts that demand nothing the predicate is compiled to the same clauses. -/
def Predicate.Prunable (catalog : Catalog) (predicate : Predicate) : Prop :=
  gather (entryClauses catalog predicate.prune.entries) =
    gather (entryClauses catalog predicate.entries)

namespace Predicate.Prunable

variable {predicate : Predicate}

/-- A predicate that can be pruned compiles to the same text behind any connective. -/
theorem toSql_eq (h : predicate.Prunable catalog) (connective : Connective) :
    predicate.prune.toSql catalog connective = predicate.toSql catalog connective :=
  congrArg (connective.join <$> ·) h

/-- Of a predicate that demands nothing, nothing is left to compile. -/
theorem toSql_eq_empty (h : predicate.Prunable catalog) (hatom : predicate.hasAtom = false)
    (connective : Connective) : predicate.toSql catalog connective = .ok "" := by
  obtain ⟨entries⟩ := predicate
  rw [← h.toSql_eq, Predicate.prune, pruneEntries_eq_nil hatom]
  rfl

end Predicate.Prunable

/-- No condition and one that says nothing look the same. -/
theorem present_pruneFilter {filter : Option Predicate}
    (h : ∀ predicate ∈ filter, predicate.Prunable catalog) :
    Sql.present <$> (pruneFilter filter).mapM (Predicate.toSql catalog .and) =
      Sql.present <$> filter.mapM (Predicate.toSql catalog .and) := by
  match filter with
  | none => rfl
  | some (.ofEntries entries) =>
    have hpredicate := h _ rfl
    rw [pruneFilter]
    split
    · have hprune := hpredicate.toSql_eq .and
      rw [Predicate.prune] at hprune
      rw [Option.mapM_some, Option.mapM_some, hprune]
    · next hatom =>
      have hempty := hpredicate.toSql_eq_empty (Bool.not_eq_true _ ▸ hatom) .and
      rw [Option.mapM_some, hempty]
      rfl

/-- Without joins, the two conditions of a body are compiled on their own, the first before the
second. -/
theorem shown_expandBody (catalog : Catalog) {body : QueryBody} (hjoins : body.joins = []) :
    Expansion.shown <$> expandBody catalog body = do
      let filter ← Sql.present <$> body.filter.mapM (Predicate.toSql catalog .and)
      let having ← Sql.present <$> body.having.mapM (Predicate.toSql catalog .and)
      return ⟨"", filter, having⟩ := by
  have hmerged : body.mergedFilter = body.filter := by
    rw [QueryBody.mergedFilter, QueryBody.filters, hjoins]
    cases body.filter <;> rfl
  rw [expandBody_eq, hjoins, hmerged, overlayText_own]
  cases body.filter.mapM (Predicate.toSql catalog .and) with
  | error error => rfl
  | ok filter => cases body.having.mapM (Predicate.toSql catalog .and) <;> rfl

theorem shown_expandBody_prune {body : QueryBody}
    (h : ∀ predicate ∈ body.predicates, predicate.Prunable catalog) :
    Expansion.shown <$> expandBody catalog body.prune =
      Expansion.shown <$> expandBody catalog body := by
  rcases body.prune_cases with ⟨-, hsame⟩ | ⟨hjoins, hprune⟩
  · rw [hsame]
  · have hfilter : ∀ predicate ∈ body.filter, predicate.Prunable catalog := by
      intro predicate hpredicate
      exact h predicate (QueryBody.mem_predicates.mpr (Or.inl hpredicate))
    have hhaving : ∀ predicate ∈ body.having, predicate.Prunable catalog := by
      intro predicate hpredicate
      exact h predicate (QueryBody.mem_predicates.mpr (Or.inr (Or.inl hpredicate)))
    have hjoins' : body.prune.joins = [] := by
      rw [hprune]
      exact hjoins
    rw [shown_expandBody catalog hjoins, shown_expandBody catalog hjoins', hprune,
      present_pruneFilter hfilter, present_pruneFilter hhaving]

/-- Of an expansion a subquery has only what is shown. -/
theorem SubQuery.toSql_eq_shown (catalog : Catalog) (kind : SubQueryKind) (name : String)
    (query : SubQuery) :
    query.toSql catalog kind name = do
      let place ← subQueryPlace catalog name query.table
      let expansion ← Expansion.shown <$> expandBody catalog query.body
      return subQueryText kind place query.body expansion := by
  rw [SubQuery.toSql]
  cases subQueryPlace catalog name query.table with
  | error error => rfl
  | ok place =>
    cases expandBody catalog query.body with
    | error error => rfl
    | ok expansion =>
      show Except.ok _ = Except.ok _
      simp only [subQueryText, selectStatement_shown]

/-- So pruning the conditions of a subquery leaves its text as it was. -/
theorem SubQuery.prune_toSql {query : SubQuery}
    (h : ∀ predicate ∈ query.body.predicates, predicate.Prunable catalog) (kind : SubQueryKind)
    (name : String) :
    query.prune.toSql catalog kind name = query.toSql catalog kind name := by
  obtain ⟨table?, body⟩ := query
  rw [SubQuery.prune, SubQuery.toSql_eq_shown, SubQuery.toSql_eq_shown, shown_expandBody_prune h]
  simp only [subQueryText_prune]

/-! ## Operators -/

variable {field : String} {operator : Operator} {operand : Operand}

theorem rowsTexts_pruneQueries {queries : List (String × SubQuery)}
    (h : ∀ entry ∈ queries, ∀ predicate ∈ entry.2.body.predicates, predicate.Prunable catalog)
    (keyword : String) :
    rowsTexts catalog keyword (pruneQueries queries) = rowsTexts catalog keyword queries := by
  rw [rowsTexts_eq, rowsTexts_eq, pruneQueries_eq]
  exact mapM_map_eq fun entry hentry => SubQuery.prune_toSql (h entry hentry) _ _

theorem quantifiedTexts_pruneGroups {groups : List (Quantifier × List (String × SubQuery))}
    (h : ∀ group ∈ groups, ∀ entry ∈ group.2, ∀ predicate ∈ entry.2.body.predicates,
      predicate.Prunable catalog) :
    quantifiedTexts catalog (pruneGroups groups) = quantifiedTexts catalog groups := by
  rw [quantifiedTexts_eq, quantifiedTexts_eq, pruneGroups_eq]
  apply flatten_mapM_filter
  · intro group hgroup _
    exact rowsTexts_pruneQueries (h group hgroup) _
  · intro group _ hempty
    rw [Bool.not_eq_false', List.isEmpty_iff] at hempty
    rw [hempty]
    rfl

/-- An operand keeps its kind, so its operator takes or refuses it as before. -/
theorem operandClauses_prune
    (h : ∀ entry ∈ operand.queries, ∀ predicate ∈ entry.2.body.predicates,
      predicate.Prunable catalog) :
    operandClauses catalog field operator operand.prune =
      operandClauses catalog field operator operand := by
  cases operand with
  | value | list => rw [Operand.prune]
  | subqueries queries =>
    have hqueries :
        rowsTexts catalog operator.sql (pruneQueries queries) =
          rowsTexts catalog operator.sql queries :=
      rowsTexts_pruneQueries h operator.sql
    simp only [operandClauses, Operand.prune, hqueries, rangeClauses, Operand.values?]
  | quantified groups =>
    have hgroups :
        quantifiedTexts catalog (pruneGroups groups) = quantifiedTexts catalog groups := by
      apply quantifiedTexts_pruneGroups
      intro group hgroup entry hentry
      exact h entry (List.mem_flatMap.mpr ⟨group, hgroup, hentry⟩)
    simp only [operandClauses, Operand.prune, hgroups, rangeClauses, Operand.values?]

/-- An operand that fits and demands nothing has no clause. -/
theorem operandClauses_eq_nil (hfits : operand.fits operator = true)
    (hatom : operand.hasAtom = false) :
    operandClauses catalog field operator operand = .ok [] := by
  have hatoms : operand.atoms field operator = [] := by
    cases operand with
    | value | list => cases hatom
    | subqueries queries =>
      rw [Operand.hasAtom, Bool.not_eq_false', List.isEmpty_iff] at hatom
      rw [hatom]
      rfl
    | quantified groups =>
      refine List.flatMap_eq_nil_iff.mpr fun group hgroup => ?_
      simpa using List.any_eq_false.mp hatom group hgroup
  rw [operandClauses_eq hfits, hatoms]
  rfl

/-! ## Groups -/

/-- Branches without clauses are dropped from a group by the compiler as well. -/
theorem groupClauses_pruneBranches {branches : List Predicate}
    (h : ∀ branch ∈ branches, branch.Prunable catalog) (connective : Connective) :
    groupClauses connective <$> branchTexts catalog connective (pruneBranches branches) =
      groupClauses connective <$> branchTexts catalog connective branches := by
  have hfilter : List.filter (fun text : String => !text.isEmpty) =
      List.flatMap fun text => if text.isEmpty then [] else [text] := by
    funext texts
    induction texts with
    | nil => rfl
    | cons text rest ih =>
      rw [List.filter_cons, List.flatMap_cons, ih]
      cases text.isEmpty <;> rfl
  rw [map_groupClauses, map_groupClauses, hfilter, branchTexts_eq, branchTexts_eq, pruneBranches_eq]
  refine congrArg (enclosedClauses connective <$> ·) ?_
  apply flatMap_mapM_filter
  · intro branch hbranch _
    exact (h branch hbranch).toSql_eq connective
  · intro branch hbranch hatom
    rw [(h branch hbranch).toSql_eq_empty hatom]
    rfl

/-! ## Conditions -/

/-- What kind of condition it is stays, so the clauses are compared kind by kind. -/
theorem conditionClauses_prune {condition : Condition}
    (hparts : ∀ part ∈ condition.parts, part.Prunable catalog) (hfit : condition.OperandsFit) :
    conditionClauses catalog field condition.prune = conditionClauses catalog field condition := by
  cases condition with
  | anyOf branches | allOf branches => exact groupClauses_pruneBranches hparts _
  | negation inner =>
    obtain ⟨entries⟩ := inner
    have hinner := hparts _ (List.mem_singleton_self _)
    rw [Predicate.Prunable, Predicate.prune, Predicate.entries, Predicate.entries] at hinner
    rw [Condition.prune, conditionClauses, conditionClauses, hinner]
  | existence entries =>
    rw [Condition.prune, conditionClauses, conditionClauses, existenceTexts_eq, existenceTexts_eq,
      pruneExistence_eq]
    refine congrArg (existenceClauses <$> ·) (mapM_map_eq fun entry hentry => ?_)
    rw [ExistsBody.toSubQuery_prune]
    exact SubQuery.prune_toSql (fun predicate hpredicate =>
      hparts predicate (List.mem_flatMap.mpr ⟨entry, hentry, hpredicate⟩)) _ _
  | equals value => rw [Condition.prune]
  | comparisons entries =>
    rw [Condition.prune, conditionClauses, conditionClauses, comparisonsClauses_eq,
      comparisonsClauses_eq,
      pruneComparisons_eq]
    apply flatten_mapM_filter
    · intro entry hentry _
      refine operandClauses_prune fun query hquery predicate hpredicate => hparts predicate ?_
      exact List.mem_flatMap.mpr ⟨entry, hentry, List.mem_flatMap.mpr ⟨query, hquery, hpredicate⟩⟩
    · intro entry hentry hatom
      exact operandClauses_eq_nil (hfit entry hentry) hatom

/-- A condition that demands nothing has no clause. -/
theorem conditionClauses_eq_nil {condition : Condition}
    (hparts : ∀ part ∈ condition.parts, part.Prunable catalog) (hfit : condition.OperandsFit)
    (hatom : condition.hasAtom = false) :
    conditionClauses catalog field condition = .ok [] := by
  -- what is left of the condition is empty, and there is no clause for that
  rw [← conditionClauses_prune hparts hfit]
  cases condition with
  | anyOf branches | allOf branches =>
    rw [Condition.prune, pruneBranches_eq_nil hatom]
    rfl
  | negation inner =>
    obtain ⟨entries⟩ := inner
    rw [Condition.prune, pruneEntries_eq_nil hatom]
    rfl
  | existence entries =>
    rw [Condition.hasAtom, Bool.not_eq_false', List.isEmpty_iff] at hatom
    rw [hatom]
    rfl
  | equals value => cases hatom
  | comparisons entries =>
    rw [Condition.prune, pruneComparisons_eq_nil hatom]
    rfl

/-! ## Predicates -/

/-- In a predicate that was read, what demands nothing can be left out. -/
theorem Predicate.IsRead.prunable {predicate : Predicate} (hread : predicate.IsRead) :
    predicate.Prunable catalog := by
  have hparts : ∀ entry ∈ predicate.entries, ∀ part ∈ entry.2.parts, part.Prunable catalog := by
    intro entry hentry part hpart
    have hsize := Predicate.sizeOf_lt_of_mem_parts hentry hpart
    exact (hread.of_within (.inside hentry hpart .self)).prunable
  obtain ⟨entries⟩ := predicate
  rw [Prunable, Predicate.prune, Predicate.entries, Predicate.entries, gather_entryClauses,
    gather_entryClauses, pruneEntries_eq]
  apply flatten_mapM_filter
  · intro entry hentry _
    exact conditionClauses_prune (hparts entry hentry) (hread.operandsFit hentry)
  · intro entry hentry hatom
    exact conditionClauses_eq_nil (hparts entry hentry) (hread.operandsFit hentry) hatom
termination_by sizeOf predicate
decreasing_by exact hsize

end

/-! ## What is left -/

/-- No subquery is left out of an operand. -/
theorem Operand.hasAtom_prune (operand : Operand) : operand.prune.hasAtom = operand.hasAtom := by
  cases operand with
  | value | list => rw [prune]
  | subqueries queries => rw [prune, hasAtom, hasAtom, pruneQueries_eq, List.isEmpty_map]
  | quantified groups =>
    rw [prune, hasAtom, hasAtom, pruneGroups_eq, List.any_map, List.any_filter]
    simp [pruneQueries_eq]

mutual

theorem entriesHaveAtom_prune :
    ∀ entries : List (String × Condition),
      entriesHaveAtom (pruneEntries entries) = entriesHaveAtom entries
  | [] => by rw [pruneEntries]
  | (field, condition) :: rest => by
    have hrest := entriesHaveAtom_prune rest
    rw [pruneEntries, entriesHaveAtom]
    cases hatom : condition.hasAtom with
    | true =>
      rw [if_pos rfl, entriesHaveAtom, Condition.hasAtom_prune condition, hatom, Bool.true_or,
        Bool.true_or]
    | false => rw [if_neg (by simp), hrest, Bool.false_or]

/-- Pruning leaves something of a condition that demands something. -/
theorem Condition.hasAtom_prune :
    ∀ condition : Condition, condition.prune.hasAtom = condition.hasAtom
  | .anyOf branches => by
    rw [Condition.prune, Condition.hasAtom, Condition.hasAtom, branchesHaveAtom_prune]
  | .allOf branches => by
    rw [Condition.prune, Condition.hasAtom, Condition.hasAtom, branchesHaveAtom_prune]
  | .negation (.ofEntries entries) => by
    rw [Condition.prune, Condition.hasAtom, Condition.hasAtom, entriesHaveAtom_prune]
  | .existence entries => by
    rw [Condition.prune, Condition.hasAtom, Condition.hasAtom, pruneExistence_eq, List.isEmpty_map]
  | .equals value => by rw [Condition.prune]
  | .comparisons entries => by
    rw [Condition.prune, Condition.hasAtom, Condition.hasAtom, pruneComparisons_eq, List.any_map,
      List.any_filter]
    simp [Operand.hasAtom_prune]

theorem branchesHaveAtom_prune :
    ∀ branches : List Predicate, branchesHaveAtom (pruneBranches branches) =
      branchesHaveAtom branches
  | [] => by rw [pruneBranches]
  | .ofEntries entries :: rest => by
    have hrest := branchesHaveAtom_prune rest
    rw [pruneBranches, branchesHaveAtom]
    cases hatom : entriesHaveAtom entries with
    | true =>
      rw [if_pos rfl, branchesHaveAtom, entriesHaveAtom_prune entries, hatom, Bool.true_or,
        Bool.true_or]
    | false => rw [if_neg (by simp), hrest, Bool.false_or]

end

/-- The predicates directly inside a condition that pruning gets to: all but those of queries that
join something. -/
def QueryBody.openPredicates (body : QueryBody) : List Predicate :=
  if body.joins.isEmpty then body.predicates else []

def Condition.openParts : Condition → List Predicate
  | .anyOf branches | .allOf branches => branches
  | .negation inner => [inner]
  | .existence entries => entries.flatMap fun (_, body) => body.toSubQuery.body.openPredicates
  | .equals _ => []
  | .comparisons entries => entries.flatMap fun (_, operand) =>
    operand.queries.flatMap fun (_, query) => query.body.openPredicates

/-- Every part of the predicate demands something, at whatever depth. -/
inductive Predicate.IsTight : Predicate → Prop
  | of_entries {predicate : Predicate}
      (hentries : ∀ entry ∈ predicate.entries, entry.2.hasAtom = true)
      (hoperands : ∀ operator operand, predicate.Compares operator operand →
        operand.hasAtom = true ∧
        ∀ groups, operand = .quantified groups → ∀ group ∈ groups, group.2 ≠ [])
      (hparts : ∀ entry ∈ predicate.entries, ∀ part ∈ entry.2.openParts, part.hasAtom = true)
      (htight : ∀ entry ∈ predicate.entries, ∀ part ∈ entry.2.openParts, IsTight part) :
      IsTight predicate

/-- What is left inside a body is the pruned form of something that demanded something. -/
theorem QueryBody.mem_openPredicates_prune {body : QueryBody} {part : Predicate}
    (h : part ∈ body.prune.openPredicates) :
    ∃ whole ∈ body.openPredicates, whole.hasAtom = true ∧ part = whole.prune := by
  -- what is left of a condition was one before
  have hfilter : ∀ {filter : Option Predicate}, pruneFilter filter = some part →
      ∃ whole, filter = some whole ∧ whole.hasAtom = true ∧ part = whole.prune := by
    intro filter h
    match filter with
    | none => cases h
    | some (.ofEntries entries) =>
      rw [pruneFilter] at h
      split at h
      · next hatom =>
        cases h
        exact ⟨_, rfl, hatom, rfl⟩
      · cases h
  -- a body with joins has no open predicates
  rcases body.prune_cases with ⟨hjoins, hsame⟩ | ⟨hjoins, hprune⟩
  · rw [hsame, openPredicates, if_neg (by simpa using hjoins)] at h
    cases h
  · have hopen : body.openPredicates = body.predicates := if_pos (by simpa using hjoins)
    have hjoins' : body.prune.joins = [] := by
      rw [hprune]
      exact hjoins
    have hparts : part ∈ pruneFilter body.filter ∨ part ∈ pruneFilter body.having := by
      rw [openPredicates, if_pos (by simpa using hjoins'), predicates, filters, hjoins',
        hprune] at h
      simpa using h
    rw [hopen]
    rcases hparts with hpart | hpart
    · obtain ⟨whole, hwhole, hpruned⟩ := hfilter hpart
      exact ⟨whole, mem_predicates.mpr (Or.inl hwhole), hpruned⟩
    · obtain ⟨whole, hwhole, hpruned⟩ := hfilter hpart
      exact ⟨whole, mem_predicates.mpr (Or.inr (Or.inl hwhole)), hpruned⟩

theorem SubQuery.body_prune (query : SubQuery) : query.prune.body = query.body.prune := by
  obtain ⟨table?, body⟩ := query
  rw [SubQuery.prune]

theorem Operand.mem_queries_prune {operand : Operand} {query : String × SubQuery}
    (h : query ∈ operand.prune.queries) :
    ∃ original ∈ operand.queries, query = (original.1, original.2.prune) := by
  have hqueries : ∀ {queries : List (String × SubQuery)}, query ∈ pruneQueries queries →
      ∃ original ∈ queries, query = (original.1, original.2.prune) := by
    intro queries h
    rw [pruneQueries_eq] at h
    obtain ⟨original, horiginal, rfl⟩ := List.mem_map.mp h
    exact ⟨original, horiginal, rfl⟩
  cases operand with
  | value | list =>
    rw [prune] at h
    cases h
  | subqueries queries =>
    rw [prune] at h
    exact hqueries h
  | quantified groups =>
    rw [prune, queries, pruneGroups_eq, List.flatMap_map] at h
    obtain ⟨group, hgroup, hquery⟩ := List.mem_flatMap.mp h
    obtain ⟨original, horiginal, hpruned⟩ := hqueries hquery
    exact ⟨original, List.mem_flatMap.mpr ⟨group, List.mem_of_mem_filter hgroup, horiginal⟩,
      hpruned⟩

/-- What is left of an operand has subqueries in every group. -/
theorem Operand.ne_nil_of_mem_prune {operand : Operand}
    {groups : List (Quantifier × List (String × SubQuery))}
    (h : operand.prune = .quantified groups) : ∀ group ∈ groups, group.2 ≠ [] := by
  cases operand with
  | value | list | subqueries =>
    rw [prune] at h
    cases h
  | quantified original =>
    rw [prune] at h
    cases h
    intro group hgroup
    rw [pruneGroups_eq] at hgroup
    obtain ⟨whole, hwhole, rfl⟩ := List.mem_map.mp hgroup
    simpa [pruneQueries_eq] using (List.mem_filter.mp hwhole).2

/-- Every operator that is left had an atom behind it before. -/
theorem Condition.exists_of_prune_eq {condition : Condition}
    {comparisons : List (Operator × Operand)} (h : condition.prune = .comparisons comparisons)
    {entry : Operator × Operand} (hentry : entry ∈ comparisons) :
    ∃ original : Operand, original.hasAtom = true ∧ entry.2 = original.prune := by
  cases condition with
  | anyOf | allOf | existence | equals =>
    rw [prune] at h
    cases h
  | negation inner =>
    obtain ⟨entries⟩ := inner
    rw [prune] at h
    cases h
  | comparisons entries =>
    rw [prune] at h
    cases h
    rw [pruneComparisons_eq] at hentry
    obtain ⟨whole, hwhole, rfl⟩ := List.mem_map.mp hentry
    exact ⟨whole.2, (List.mem_filter.mp hwhole).2, rfl⟩

/-- What is left inside a condition demands something. -/
theorem Condition.mem_openParts_prune {condition : Condition} (hatom : condition.hasAtom = true)
    {part : Predicate} (h : part ∈ condition.prune.openParts) :
    ∃ whole ∈ condition.openParts, whole.hasAtom = true ∧ part = whole.prune := by
  have hbranches : ∀ {branches : List Predicate}, part ∈ pruneBranches branches →
      ∃ whole ∈ branches, whole.hasAtom = true ∧ part = whole.prune := by
    intro branches h
    rw [pruneBranches_eq] at h
    obtain ⟨whole, hwhole, rfl⟩ := List.mem_map.mp h
    obtain ⟨hmem, hatom⟩ := List.mem_filter.mp hwhole
    exact ⟨whole, hmem, hatom, rfl⟩
  cases condition with
  | anyOf branches | allOf branches =>
    rw [prune] at h
    exact hbranches h
  -- the atoms of a negation are those of the predicate in it
  | negation inner =>
    obtain ⟨entries⟩ := inner
    rw [prune] at h
    exact ⟨_, List.mem_singleton_self _, hatom, List.mem_singleton.mp h⟩
  -- every test stays, and its body is pruned
  | existence entries =>
    rw [prune, openParts, pruneExistence_eq, List.flatMap_map] at h
    obtain ⟨entry, hentry, hpart⟩ := List.mem_flatMap.mp h
    dsimp only at hpart
    rw [ExistsBody.toSubQuery_prune, SubQuery.body_prune] at hpart
    obtain ⟨whole, hwhole, hpruned⟩ := QueryBody.mem_openPredicates_prune hpart
    exact ⟨whole, List.mem_flatMap.mpr ⟨entry, hentry, hwhole⟩, hpruned⟩
  | equals value =>
    rw [prune] at h
    cases h
  | comparisons entries =>
    rw [prune, openParts, pruneComparisons_eq, List.flatMap_map] at h
    obtain ⟨entry, hentry, hqueries⟩ := List.mem_flatMap.mp h
    obtain ⟨query, hquery, hpart⟩ := List.mem_flatMap.mp hqueries
    obtain ⟨original, horiginal, rfl⟩ := Operand.mem_queries_prune hquery
    dsimp only at hpart
    rw [SubQuery.body_prune] at hpart
    obtain ⟨whole, hwhole, hpruned⟩ := QueryBody.mem_openPredicates_prune hpart
    refine ⟨whole, List.mem_flatMap.mpr ⟨entry, List.mem_of_mem_filter hentry, ?_⟩, hpruned⟩
    exact List.mem_flatMap.mpr ⟨original, horiginal, hwhole⟩

/-- Pruning reaches some of the parts of a condition: all but those behind joins. -/
theorem Condition.openParts_subset_parts (condition : Condition) :
    condition.openParts ⊆ condition.parts := by
  have hbody : ∀ body : QueryBody, body.openPredicates ⊆ body.predicates := by
    intro body
    rw [QueryBody.openPredicates]
    split
    · exact fun part hpart => hpart
    · exact List.nil_subset _
  cases condition with
  | anyOf | allOf | negation | equals => exact fun part hpart => hpart
  | existence entries =>
    intro part hpart
    obtain ⟨entry, hentry, hpart⟩ := List.mem_flatMap.mp hpart
    exact List.mem_flatMap.mpr ⟨entry, hentry, hbody _ hpart⟩
  | comparisons entries =>
    intro part hpart
    obtain ⟨entry, hentry, hpart⟩ := List.mem_flatMap.mp hpart
    obtain ⟨query, hquery, hpart⟩ := List.mem_flatMap.mp hpart
    exact List.mem_flatMap.mpr ⟨entry, hentry, List.mem_flatMap.mpr ⟨query, hquery, hbody _ hpart⟩⟩

/-- Pruning leaves nothing that demands nothing. -/
theorem Predicate.isTight_prune (predicate : Predicate) : predicate.prune.IsTight := by
  -- what is left of the entries is the pruned form of some that demand something
  have hentries :
      ∀ entry ∈ predicate.prune.entries, ∃ whole ∈ predicate.entries, whole.2.hasAtom = true ∧
      entry = (whole.1, whole.2.prune) := by
    obtain ⟨entries⟩ := predicate
    intro entry hentry
    rw [Predicate.prune, Predicate.entries, pruneEntries_eq] at hentry
    obtain ⟨whole, hwhole, rfl⟩ := List.mem_map.mp hentry
    obtain ⟨hmem, hatom⟩ := List.mem_filter.mp hwhole
    exact ⟨whole, hmem, hatom, rfl⟩
  refine .of_entries ?_ ?_ ?_ ?_
  · intro entry hentry
    obtain ⟨whole, -, hatom, rfl⟩ := hentries entry hentry
    rw [Condition.hasAtom_prune, hatom]
  · intro operator operand hcompares
    obtain ⟨key, comparisons, hentry, hcomparison⟩ := hcompares
    obtain ⟨whole, -, -, heq⟩ := hentries _ hentry
    obtain ⟨original, hatom, hpruned⟩ :=
      Condition.exists_of_prune_eq (Prod.mk.inj heq).2.symm hcomparison
    dsimp only at hpruned
    rw [hpruned, Operand.hasAtom_prune]
    exact ⟨hatom, fun groups hgroups => Operand.ne_nil_of_mem_prune hgroups⟩
  · intro entry hentry part hpart
    obtain ⟨whole, -, hatom, rfl⟩ := hentries entry hentry
    obtain ⟨⟨entries⟩, -, hinner, rfl⟩ := Condition.mem_openParts_prune hatom hpart
    exact (entriesHaveAtom_prune entries).trans hinner
  · intro entry hentry part hpart
    obtain ⟨⟨key, condition⟩, hmem, hatom, rfl⟩ := hentries entry hentry
    obtain ⟨inner, hopen, -, rfl⟩ := Condition.mem_openParts_prune hatom hpart
    -- the recursion goes to a part of the predicate as it was before pruning
    have hsize := Predicate.sizeOf_lt_of_mem_parts hmem (condition.openParts_subset_parts hopen)
    exact inner.isTight_prune
termination_by sizeOf predicate
decreasing_by exact hsize

/-! ## What demands nothing leaves no trace -/

/-- Nothing in what is left of a predicate demands nothing, and it is compiled as the predicate is,
to the same text or with the same error. In every condition that is compiled along with the
predicate, the connectives stand between what they connect, and the parentheses around something. -/
theorem Predicate.toSql_prune {json : Json} {predicate : Predicate}
    (hread : Predicate.ofJson? json = .ok predicate) (catalog : Catalog) (connective : Connective) :
    predicate.prune.IsTight ∧
      predicate.prune.toSql catalog connective = predicate.toSql catalog connective ∧
        ∀ inner : Predicate, inner.IsCompiledWith predicate → ∀ outer : Connective,
          inner.toSql catalog outer = spell catalog (inner.marks outer) ∧
            IsPlaced (inner.marks outer) := by
  have hshape : predicate.IsRead := ⟨json, (faithful_predicate json).ok_iff.mp hread⟩
  refine ⟨predicate.isTight_prune, hshape.prunable.toSql_eq connective, ?_⟩
  intro inner hinner outer
  have hmarked : inner.Marked catalog := hinner.drawsFrom.marked hshape
  exact ⟨hmarked.toSql_eq outer, inner.isPlaced_marks outer⟩

/-- The JSON of `loosePredicate`. -/
def looseJson : Json :=
  .object
    [("OR", .array [.object [("NOT", .object [])], .object [("name", .string "Abba")]]),
      ("AND", .array [.object [("OR", .array [])]]),
      ("id", .object [("in", .object []), ("greaterThan", .object [("some", .object [])])]),
      ("exists", .object [("albums", .object [("where", .object
        [("NOT", .object [("exists", .object [])]), ("year", .number (.int 1975))])])])]

/-- Conditions that demand nothing, before and behind those that do, in a group and in a
subquery. -/
def loosePredicate : Predicate :=
  .ofEntries
    [("OR", .anyOf
        [.ofEntries [("NOT", .negation (.ofEntries []))],
          .ofEntries [("name", .equals (.string "Abba"))]]),
      ("AND", .allOf [.ofEntries [("OR", .anyOf [])]]),
      ("id", .comparisons [(.isIn, .subqueries []), (.greaterThan, .quantified [(.some, [])])]),
      ("exists",
        .existence [("albums", .rowsOf ⟨none, { QueryBody.empty with filter := some (.ofEntries
        [("NOT", .negation (.ofEntries [("exists", .existence [])])),
          ("year", .equals (.number (.int 1975)))]) }⟩)])]

/-- What is left of `loosePredicate`. -/
def tightPredicate : Predicate :=
  .ofEntries
    [("OR", .anyOf [.ofEntries [("name", .equals (.string "Abba"))]]),
      ("exists",
        .existence [("albums", .rowsOf ⟨none, { QueryBody.empty with filter := some (.ofEntries
        [("year", .equals (.number (.int 1975)))]) }⟩)])]

/-- The text that both compile to. -/
def looseText : String :=
  "(\"name\" = 'Abba') AND EXISTS(SELECT 1 FROM \"albums\" WHERE \"year\" = 1975 AND " ++
    "\"albums\".\"artist_id\" = \"artists\".\"id\")"

theorem toSql_loosePredicate :
    (Predicate.ofJson? looseJson = .ok loosePredicate ∧ loosePredicate.prune = tightPredicate ∧
        loosePredicate.toSql albumCatalog .and = .ok looseText) ∧
      loosePredicate.prune.IsTight ∧
        loosePredicate.prune.toSql albumCatalog .and = loosePredicate.toSql albumCatalog .and ∧
          ∀ inner : Predicate, inner.IsCompiledWith loosePredicate → ∀ outer : Connective,
            inner.toSql albumCatalog outer = spell albumCatalog (inner.marks outer) ∧
              IsPlaced (inner.marks outer) := by
  have hread : Predicate.ofJson? looseJson = .ok loosePredicate := rfl
  have hprune : loosePredicate.prune = tightPredicate := rfl
  have hsql : loosePredicate.toSql albumCatalog .and = .ok looseText :=
    eq_ok_of_toOption (by decide +kernel)
  exact ⟨⟨hread, hprune, hsql⟩, Predicate.toSql_prune hread albumCatalog .and⟩

end DescriptorSql
