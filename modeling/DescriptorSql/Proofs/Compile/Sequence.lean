import DescriptorSql.Compile.Condition

/-!
# `Proofs/Compile/Sequence.lean` — lists are compiled item by item

The compiler goes through the branches of a group, through existence tests and through subqueries in
one recursion each. All of them are the same: every item is compiled to a list of texts, and the
lists are put in sequence. So the first item that fails decides the error (`exists_of_sequence`),
and each recursion is one pass over its list (`sequence_eq_mapM`).
-/

set_option autoImplicit false

namespace DescriptorSql

/-- The text of one subquery, in a list. -/
def subQueryTexts (catalog : Catalog) (kind : SubQueryKind) (entry : String × SubQuery) :
    Clausal := do
  let place ← subQueryPlace catalog entry.1 entry.2.table
  let expansion ← expandBody catalog entry.2.body
  return [subQueryText kind place entry.2.body expansion]

/-- The existence tests of relations, without the test of whether there are any. -/
theorem existenceTexts_cons (catalog : Catalog) (entry : String × ExistsBody)
    (rest : List (String × ExistsBody)) :
    existenceTexts catalog (entry :: rest) = do
      return (← subQueryTexts catalog .existence (entry.1, entry.2.toSubQuery)) ++
        (← existenceTexts catalog rest) := by
  obtain ⟨name, body⟩ := entry
  cases body with
  | anyRow =>
    have hempty : expandBody catalog QueryBody.empty = .ok Expansion.empty := rfl
    rw [existenceTexts, subQueryTexts]
    dsimp only [ExistsBody.toSubQuery, SubQuery.empty]
    rw [hempty]
    cases subQueryPlace catalog name none <;> rfl
  | rowsOf query =>
    obtain ⟨table?, body⟩ := query
    rw [existenceTexts, subQueryTexts, ExistsBody.toSubQuery]
    cases subQueryPlace catalog name table? with
    | error e => rfl
    | ok place => cases expandBody catalog body <;> rfl

theorem rowsTexts_cons (catalog : Catalog) (keyword : String) (entry : String × SubQuery)
    (rest : List (String × SubQuery)) :
    rowsTexts catalog keyword (entry :: rest) = do
      return (← subQueryTexts catalog (.rows keyword) entry) ++
        (← rowsTexts catalog keyword rest) := by
  obtain ⟨name, table?, body⟩ := entry
  rw [rowsTexts, subQueryTexts]
  cases subQueryPlace catalog name table? with
  | error e => rfl
  | ok place => cases expandBody catalog body <;> rfl

theorem branchTexts_cons (catalog : Catalog) (connective : Connective) (branch : Predicate)
    (rest : List Predicate) :
    branchTexts catalog connective (branch :: rest) = do
      return (← (fun text => [text]) <$> branch.toSql catalog connective) ++
        (← branchTexts catalog connective rest) := by
  obtain ⟨entries⟩ := branch
  rw [branchTexts, Predicate.toSql, Predicate.entries]
  cases gather (entryClauses catalog entries) <;> rfl

/-! ## Errors -/

/-- Of two steps in a row, the first that fails decides the error. -/
theorem error_of_bind_eq_error {ε α β : Type} {x : Except ε α} {f : α → Except ε β} {error : ε}
    (h : x >>= f = .error error) : x = .error error ∨ ∃ a, x = .ok a ∧ f a = .error error := by
  cases x with
  | error other =>
    cases h
    exact Or.inl rfl
  | ok a => exact Or.inr ⟨a, rfl, h⟩

theorem error_of_map_eq_error {ε α β : Type} {x : Except ε α} {f : α → β} {error : ε}
    (h : f <$> x = .error error) : x = .error error := by
  cases x with
  | error other =>
    cases h
    rfl
  | ok a => cases h

/-- In a list that is compiled item by item, an error is that of an item. -/
theorem exists_of_sequence {α : Type} {f : List α → Clausal} {g : α → Clausal} {items : List α}
    {error : QueryError} (h : f items = .error error) (hnil : f [] = .ok [])
    (hcons : ∀ item rest, f (item :: rest) = do return (← g item) ++ (← f rest)) :
    ∃ item ∈ items, g item = .error error := by
  induction items with
  | nil =>
    rw [hnil] at h
    cases h
  | cons item rest ih =>
    rw [hcons] at h
    rcases error_of_bind_eq_error h with hitem | ⟨texts, -, hrest⟩
    · exact ⟨item, List.mem_cons_self, hitem⟩
    · rcases error_of_bind_eq_error hrest with hrest | ⟨others, -, hnone⟩
      · obtain ⟨other, hother, herror⟩ := ih hrest
        exact ⟨other, List.mem_cons_of_mem item hother, herror⟩
      · cases hnone

/-! ## Items -/

theorem mapM_singleton {α ρ : Type} (f : α → Except QueryError ρ) (item : α) :
    [item].mapM f = (fun result => [result]) <$> f item := by
  rw [List.mapM_cons]
  cases f item <;> rfl

/-- Two readers that agree on the items agree on the list. -/
theorem mapM_congr {α ρ : Type} {f g : α → Except QueryError ρ} {items : List α}
    (h : ∀ item ∈ items, f item = g item) : items.mapM f = items.mapM g := by
  induction items with
  | nil => rfl
  | cons item rest ih =>
    obtain ⟨hitem, hrest⟩ := List.forall_mem_cons.mp h
    rw [List.mapM_cons, List.mapM_cons, hitem, ih hrest]

/-- Items that are changed without a difference to what comes of them. -/
theorem mapM_map_eq {α β ρ : Type} {f : β → Except QueryError ρ} {g : α → Except QueryError ρ}
    {change : α → β} {items : List α} (h : ∀ item ∈ items, f (change item) = g item) :
    (items.map change).mapM f = items.mapM g :=
  List.mapM_map.trans (mapM_congr h)

/-- What is done to every result can be done item by item. -/
theorem map_mapM {α ρ σ : Type} (f : ρ → σ) (g : α → Except QueryError ρ) (items : List α) :
    List.map f <$> items.mapM g = items.mapM fun item => f <$> g item := by
  induction items with
  | nil => rfl
  | cons item rest ih =>
    rw [List.mapM_cons, List.mapM_cons, ← ih]
    cases g item with
    | error error => rfl
    | ok own => cases rest.mapM g <;> rfl

/-- Items that come in parts are compiled part by part. -/
theorem mapM_flatMap {α β ρ : Type} (parts : α → List β) (f : β → Except QueryError ρ)
    (items : List α) :
    (items.flatMap parts).mapM f = List.flatten <$> items.mapM fun item => (parts item).mapM f := by
  induction items with
  | nil => rfl
  | cons item rest ih =>
    rw [List.flatMap_cons, List.mapM_append, ih, List.mapM_cons]
    cases (parts item).mapM f with
    | error error => rfl
    | ok own => cases rest.mapM fun item => (parts item).mapM f <;> rfl

/-- There are as many results as items, so there are none only for the empty list. -/
theorem isEmpty_of_mapM {α ρ : Type} {f : α → Except QueryError ρ} {items : List α}
    {results : List ρ} (h : items.mapM f = .ok results) : results.isEmpty = items.isEmpty := by
  cases items with
  | nil =>
    cases h
    rfl
  | cons item rest =>
    rw [List.mapM_cons] at h
    cases hitem : f item with
    | error error =>
      rw [hitem] at h
      cases h
    | ok own =>
      rw [hitem] at h
      cases hrest : rest.mapM f with
      | error error =>
        rw [hrest] at h
        cases h
      | ok others =>
        rw [hrest] at h
        cases h
        rfl

/-! ## Joined clauses -/

@[simp] theorem Connective.join_singleton (connective : Connective) (text : String) :
    connective.join [text] = text := String.intercalate_singleton

/-- Both sides have to be there, for without clauses there is no separator. -/
theorem Connective.join_append (connective : Connective) {first second : List String}
    (hfirst : first ≠ []) (hsecond : second ≠ []) :
    connective.join (first ++ second) =
      connective.join first ++ connective.separator ++ connective.join second :=
  String.intercalate_append_of_ne_nil hfirst hsecond

theorem Connective.join_cons (connective : Connective) (first : String) {rest : List String}
    (hrest : rest ≠ []) :
    connective.join (first :: rest) = first ++ connective.separator ++ connective.join rest := by
  rw [← List.singleton_append, connective.join_append (by simp) hrest, connective.join_singleton]

/-! ## The lists as a whole -/

/-- The shape that all the recursions have in common, and from which each is one pass over its list.
-/
theorem sequence_eq_mapM {α : Type} {f : List α → Clausal} {g : α → Clausal} (hnil : f [] = .ok [])
    (hcons : ∀ item rest, f (item :: rest) = do return (← g item) ++ (← f rest)) (items : List α) :
    f items = List.flatten <$> items.mapM g := by
  induction items with
  | nil => exact hnil
  | cons item rest ih =>
    rw [hcons, ih, List.mapM_cons]
    cases g item with
    | error error => rfl
    | ok own => cases rest.mapM g <;> rfl

/-- Lists in which every item is compiled to one text. -/
theorem texts_eq_mapM {α : Type} {f : List α → Clausal} {g : α → Except QueryError String}
    (hnil : f [] = .ok [])
    (hcons : ∀ item rest, f (item :: rest) = do
      return (← (fun text => [text]) <$> g item) ++ (← f rest)) (items : List α) :
    f items = items.mapM g := by
  rw [sequence_eq_mapM hnil hcons, ← map_mapM]
  cases items.mapM g with
  | error error => rfl
  | ok texts => exact congrArg Except.ok (List.flatMap_singleton' texts)

section

variable (catalog : Catalog)

/-- The text of a subquery. -/
def SubQuery.toSql (kind : SubQueryKind) (name : String) (query : SubQuery) :
    Except QueryError String := do
  let place ← subQueryPlace catalog name query.table
  let expansion ← expandBody catalog query.body
  return subQueryText kind place query.body expansion

theorem subQueryTexts_eq (kind : SubQueryKind) (entry : String × SubQuery) :
    subQueryTexts catalog kind entry =
      (fun text => [text]) <$> entry.2.toSql catalog kind entry.1 := by
  rw [subQueryTexts, SubQuery.toSql]
  cases subQueryPlace catalog entry.1 entry.2.table with
  | error error => rfl
  | ok place => cases expandBody catalog entry.2.body <;> rfl

/-- A branch is compiled on its own, and joined by the connective of its group. -/
theorem branchTexts_eq (connective : Connective) (branches : List Predicate) :
    branchTexts catalog connective branches = branches.mapM (Predicate.toSql catalog connective) :=
  texts_eq_mapM (f := branchTexts catalog connective) rfl
    (branchTexts_cons catalog connective) branches

/-- An existence test is a subquery behind EXISTS, and the test for any row one with the empty body.
-/
theorem existenceTexts_eq (entries : List (String × ExistsBody)) :
    existenceTexts catalog entries =
      entries.mapM fun entry => entry.2.toSubQuery.toSql catalog .existence entry.1 :=
  texts_eq_mapM (f := existenceTexts catalog) rfl
    (fun entry rest => by rw [existenceTexts_cons, subQueryTexts_eq]) entries

theorem rowsTexts_eq (keyword : String) (queries : List (String × SubQuery)) :
    rowsTexts catalog keyword queries =
      queries.mapM fun entry => entry.2.toSql catalog (.rows keyword) entry.1 :=
  texts_eq_mapM (f := rowsTexts catalog keyword) rfl
    (fun entry rest => by rw [rowsTexts_cons, subQueryTexts_eq]) queries

/-- The subqueries behind a quantifier are written with the quantifier for a keyword. -/
theorem quantifiedTexts_eq (groups : List (Quantifier × List (String × SubQuery))) :
    quantifiedTexts catalog groups = List.flatten <$> groups.mapM fun group =>
      rowsTexts catalog group.1.sql group.2 :=
  sequence_eq_mapM (f := quantifiedTexts catalog) rfl (fun _ _ => rfl) groups

/-- Each operator has its own clauses, for there may be several subqueries behind it. -/
theorem comparisonsClauses_eq (field : String) (entries : List (Operator × Operand)) :
    comparisonsClauses catalog field entries = List.flatten <$> entries.mapM fun entry =>
      operandClauses catalog field entry.1 entry.2 :=
  sequence_eq_mapM (f := comparisonsClauses catalog field) rfl (fun _ _ => rfl) entries

/-- As long as nothing is laid over them, the entries are one more list. -/
theorem gather_entryClauses (entries : List (String × Condition)) :
    gather (entryClauses catalog entries) = List.flatten <$> entries.mapM fun entry =>
      conditionClauses catalog entry.1 entry.2 :=
  sequence_eq_mapM (f := fun entries => gather (entryClauses catalog entries)) rfl
    (fun _ _ => rfl) entries

end

end DescriptorSql
