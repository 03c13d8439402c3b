import DescriptorSql.Proofs.Compile.Sequence
import DescriptorSql.Proofs.Compile.Shown

/-!
# `Proofs/Compile/Emptiness.lean` — conditions that say nothing

A predicate may be written and demand nothing: an empty map, a group of empty groups, an operator
over no subquery. Whether it demands something is decided by its shape (`Predicate.hasAtom`). The
compiler decides by the text instead, and it does so again at every level, leaving out what is
empty. Both are the same (`Predicate.toSql_isEmpty`): no clause is an empty text, so a text is empty
only if there is no clause in it.
-/

set_option autoImplicit false

namespace DescriptorSql

/-! ## Atoms -/

/-- A value or a list demands something whatever it is, subqueries do if there are any. -/
def Operand.hasAtom : Operand → Bool
  | .value _ | .list _ => true
  | .subqueries queries => !queries.isEmpty
  | .quantified groups => groups.any fun (_, queries) => !queries.isEmpty

mutual

def entriesHaveAtom : List (String × Condition) → Bool
  | [] => false
  | (_, condition) :: rest => condition.hasAtom || entriesHaveAtom rest

/-- There is a value, an existence test or an operator in the condition that demands something. -/
def Condition.hasAtom : Condition → Bool
  | .anyOf branches | .allOf branches => branchesHaveAtom branches
  | .negation (.ofEntries entries) => entriesHaveAtom entries
  | .existence entries => !entries.isEmpty
  | .equals _ => true
  | .comparisons entries => entries.any fun (_, operand) => operand.hasAtom

def branchesHaveAtom : List Predicate → Bool
  | [] => false
  | .ofEntries entries :: rest => entriesHaveAtom entries || branchesHaveAtom rest

end

/-- The predicate demands something, at whatever depth. -/
def Predicate.hasAtom : Predicate → Bool
  | .ofEntries entries => entriesHaveAtom entries

/-! ## Clauses -/

/-- The clauses are texts that are not empty, and there are some exactly if something is
demanded. -/
structure Tells (clauses : List String) (demands : Bool) : Prop where
  ne_empty : ∀ clause ∈ clauses, clause ≠ ""
  isEmpty_eq : clauses.isEmpty = !demands

namespace Tells

variable {clauses others : List String} {demands more : Bool}

theorem nil : Tells [] false := ⟨by simp, rfl⟩

/-- One clause is some demand. -/
theorem single {clause : String} (h : clause ≠ "") : Tells [clause] true :=
  ⟨List.forall_mem_singleton.mpr h, rfl⟩

/-- What two lists demand together is what either demands. -/
theorem append (h : Tells clauses demands) (h' : Tells others more) :
    Tells (clauses ++ others) (demands || more) where
  ne_empty := List.forall_mem_append.mpr ⟨h.ne_empty, h'.ne_empty⟩
  isEmpty_eq := by
    have happend : (clauses ++ others).isEmpty = (clauses.isEmpty && others.isEmpty) := by
      cases clauses <;> rfl
    rw [happend, h.isEmpty_eq, h'.isEmpty_eq, Bool.not_or]

theorem map (h : Tells clauses demands) {f : String → String} (hf : ∀ clause, f clause ≠ "") :
    Tells (clauses.map f) demands where
  ne_empty := List.forall_mem_map.mpr fun clause _ => hf clause
  isEmpty_eq := by rw [List.isEmpty_map, h.isEmpty_eq]

/-- What connects clauses is empty only if there is no clause. -/
theorem isEmpty_join (h : Tells clauses demands) (connective : Connective) :
    (connective.join clauses).isEmpty = !demands := by
  rw [← h.isEmpty_eq]
  cases hclauses : clauses with
  | nil => rfl
  | cons clause rest =>
    have hmem : clause ∈ clause :: rest := List.mem_cons_self
    have hjoin : Contains (connective.join (clause :: rest)) clause := .intercalate hmem
    have hne := hjoin.ne_empty (h.ne_empty clause (hclauses ▸ hmem))
    rw [List.isEmpty_cons, ← Bool.not_eq_true, String.isEmpty_iff]
    exact hne

/-- A text that is put into parentheses, or left out if it is empty. -/
theorem negationClauses {text : String} (h : text.isEmpty = !demands) :
    Tells (negationClauses text) demands := by
  rw [DescriptorSql.negationClauses, h]
  cases demands with
  | false => exact nil
  | true => exact single (by simp)

end Tells

/-- A group has a clause if one of its branches has a text. -/
theorem tells_groupClauses {connective : Connective} {texts : List String} {demands : Bool}
    (h : (texts.filter (!·.isEmpty)).isEmpty = !demands) :
    Tells (groupClauses connective texts) demands := by
  rw [groupClauses, h]
  cases demands with
  | false => exact .nil
  | true => exact .single (by simp)

/-- Existence tests are one clause together, if there are any. -/
theorem tells_existenceClauses {tests : List String} {demands : Bool} (h : Tells tests demands) :
    Tells (existenceClauses tests) demands := by
  have hjoin := h.isEmpty_join .and
  rw [existenceClauses, h.isEmpty_eq]
  cases demands with
  | false => exact .nil
  | true => exact .single fun hempty => by simp [hempty] at hjoin

variable {catalog : Catalog}

/-! ## Subqueries and operators -/

/-- A subquery has its keyword and its parentheses at least. -/
theorem subQueryText_ne_empty (kind : SubQueryKind) (place : SubQueryPlace) (body : QueryBody)
    (expansion : Expansion) : subQueryText kind place body expansion ≠ "" := by
  simp [subQueryText]

theorem comparisonText_ne_empty (field : String) (operator : Operator) (right : String) :
    comparisonText field operator right ≠ "" := by
  simp [comparisonText]

/-- Every item of a list that is compiled item by item has one text. -/
theorem tells_sequence {α : Type} {f : List α → Clausal} {g : α → Clausal} {items : List α}
    {texts : List String} (hok : f items = .ok texts) (hnil : f [] = .ok [])
    (hcons : ∀ item rest, f (item :: rest) = do return (← g item) ++ (← f rest))
    (hitem : ∀ item own, g item = .ok own → Tells own true) : Tells texts (!items.isEmpty) := by
  induction items generalizing texts with
  | nil =>
    rw [hnil] at hok
    cases hok
    exact .nil
  | cons item rest ih =>
    rw [hcons] at hok
    obtain ⟨own, hown, hok⟩ := exists_of_bind_eq_ok hok
    obtain ⟨others, hothers, hok⟩ := exists_of_bind_eq_ok hok
    cases hok
    exact (hitem item own hown).append (ih hothers)

theorem tells_subQueryTexts {kind : SubQueryKind} (entry : String × SubQuery) {texts : List String}
    (hok : subQueryTexts catalog kind entry = .ok texts) : Tells texts true := by
  obtain ⟨place, -, hok⟩ := exists_of_bind_eq_ok hok
  obtain ⟨expansion, -, hok⟩ := exists_of_bind_eq_ok hok
  cases hok
  exact .single (subQueryText_ne_empty kind place entry.2.body expansion)

theorem tells_existenceTexts {entries : List (String × ExistsBody)} {texts : List String}
    (hok : existenceTexts catalog entries = .ok texts) : Tells texts (!entries.isEmpty) :=
  tells_sequence hok rfl (existenceTexts_cons catalog) fun entry _ =>
    tells_subQueryTexts (entry.1, entry.2.toSubQuery)

theorem tells_rowsTexts {keyword : String} {queries : List (String × SubQuery)}
    {texts : List String} (hok : rowsTexts catalog keyword queries = .ok texts) :
    Tells texts (!queries.isEmpty) :=
  tells_sequence hok rfl (rowsTexts_cons catalog keyword) fun entry _ => tells_subQueryTexts entry

/-- A quantifier demands nothing unless there is a subquery behind it. -/
theorem tells_quantifiedTexts {groups : List (Quantifier × List (String × SubQuery))}
    {texts : List String} (hok : quantifiedTexts catalog groups = .ok texts) :
    Tells texts (Operand.quantified groups).hasAtom := by
  induction groups generalizing texts with
  | nil =>
    cases hok
    exact .nil
  | cons group rest ih =>
    rw [quantifiedTexts] at hok
    obtain ⟨own, hown, hok⟩ := exists_of_bind_eq_ok hok
    obtain ⟨others, hothers, hok⟩ := exists_of_bind_eq_ok hok
    cases hok
    exact (tells_rowsTexts hown).append (ih hothers)

/-- A range without two bounds is an error, so there is a clause whenever it compiles. -/
theorem tells_rangeClauses {field : String} {operator : Operator} {operand : Operand}
    {clauses : List String} (hok : rangeClauses field operator operand = .ok clauses) :
    Tells clauses operand.hasAtom := by
  unfold rangeClauses at hok
  split at hok
  · next low high hvalues =>
    cases hok
    have hatom : operand.hasAtom = true := by
      cases operand with
      | value | list => rfl
      | subqueries | quantified => cases hvalues
    rw [hatom]
    exact .single (comparisonText_ne_empty field operator _)
  · cases hok

/-- An operand has a clause for each of its subqueries, and one for a value or a list. -/
theorem tells_operandClauses {field : String} {operator : Operator} {operand : Operand}
    {clauses : List String} (hok : operandClauses catalog field operator operand = .ok clauses) :
    Tells clauses operand.hasAtom := by
  unfold operandClauses at hok
  split at hok
  · -- membership
    split at hok
    · cases hok
      exact .single (comparisonText_ne_empty field operator _)
    · cases hok
      exact .single (comparisonText_ne_empty field operator _)
    · next queries =>
      obtain ⟨texts, htexts, rfl⟩ := exists_of_map_eq_ok hok
      exact (tells_rowsTexts htexts).map fun text => by simp
    · cases hok
  · split at hok
    · exact tells_rangeClauses hok
    · split at hok
      · cases hok
        exact .single (comparisonText_ne_empty field operator _)
      · cases hok
        exact .single (comparisonText_ne_empty field operator _)
      · next groups =>
        obtain ⟨texts, htexts, rfl⟩ := exists_of_map_eq_ok hok
        exact (tells_quantifiedTexts htexts).map (comparisonText_ne_empty field operator)
      · cases hok

theorem tells_comparisonsClauses {field : String} {entries : List (Operator × Operand)}
    {clauses : List String} (hok : comparisonsClauses catalog field entries = .ok clauses) :
    Tells clauses (Condition.comparisons entries).hasAtom := by
  induction entries generalizing clauses with
  | nil =>
    cases hok
    exact .nil
  | cons entry rest ih =>
    rw [comparisonsClauses] at hok
    obtain ⟨own, hown, hok⟩ := exists_of_bind_eq_ok hok
    obtain ⟨others, hothers, hok⟩ := exists_of_bind_eq_ok hok
    cases hok
    have hrest := ih hothers
    rw [Condition.hasAtom] at hrest ⊢
    exact (tells_operandClauses hown).append hrest

/-! ## Predicates -/

mutual

/-- The induction follows the compiler, and `hasAtom` looks at the same cases. At every level the
texts that are empty are those of parts that demand nothing. -/
theorem tells_entryClauses :
    ∀ {entries : List (String × Condition)} {clauses : List String},
      gather (entryClauses catalog entries) = .ok clauses → Tells clauses (entriesHaveAtom entries)
  | [], clauses, hok => by
    cases hok
    exact .nil
  | (field, condition) :: rest, clauses, hok => by
    rw [entryClauses, gather] at hok
    obtain ⟨own, hown, hok⟩ := exists_of_bind_eq_ok hok
    obtain ⟨others, hothers, hok⟩ := exists_of_bind_eq_ok hok
    cases hok
    rw [entriesHaveAtom]
    exact (tells_conditionClauses hown).append (tells_entryClauses hothers)

theorem tells_conditionClauses {field : String} :
    ∀ {condition : Condition} {clauses : List String},
      conditionClauses catalog field condition = .ok clauses → Tells clauses condition.hasAtom
  | .anyOf branches, clauses, hok => by
    rw [conditionClauses] at hok
    obtain ⟨texts, htexts, rfl⟩ := exists_of_map_eq_ok hok
    rw [Condition.hasAtom]
    exact tells_groupClauses (isEmpty_branchTexts htexts)
  | .allOf branches, clauses, hok => by
    rw [conditionClauses] at hok
    obtain ⟨texts, htexts, rfl⟩ := exists_of_map_eq_ok hok
    rw [Condition.hasAtom]
    exact tells_groupClauses (isEmpty_branchTexts htexts)
  | .negation (.ofEntries entries), clauses, hok => by
    rw [conditionClauses] at hok
    obtain ⟨inner, hinner, rfl⟩ := exists_of_map_eq_ok hok
    rw [Condition.hasAtom]
    exact .negationClauses ((tells_entryClauses hinner).isEmpty_join .and)
  | .existence entries, clauses, hok => by
    rw [conditionClauses] at hok
    obtain ⟨tests, htests, rfl⟩ := exists_of_map_eq_ok hok
    rw [Condition.hasAtom]
    exact tells_existenceClauses (tells_existenceTexts htests)
  | .equals value, clauses, hok => by
    rw [conditionClauses] at hok
    cases hok
    rw [Condition.hasAtom]
    exact .single (by simp)
  | .comparisons entries, clauses, hok => by
    rw [conditionClauses] at hok
    exact tells_comparisonsClauses hok

/-- Of the branches of a group, those that demand something have a text. -/
theorem isEmpty_branchTexts {connective : Connective} :
    ∀ {branches : List Predicate} {texts : List String},
      branchTexts catalog connective branches = .ok texts →
        (texts.filter (!·.isEmpty)).isEmpty = !branchesHaveAtom branches
  | [], texts, hok => by
    cases hok
    rfl
  | .ofEntries entries :: rest, texts, hok => by
    rw [branchTexts] at hok
    obtain ⟨clauses, hclauses, hok⟩ := exists_of_bind_eq_ok hok
    obtain ⟨others, hothers, hok⟩ := exists_of_bind_eq_ok hok
    cases hok
    have hbranch := (tells_entryClauses hclauses).isEmpty_join connective
    have hrest := isEmpty_branchTexts hothers
    rw [branchesHaveAtom, List.filter_cons, hbranch]
    cases entriesHaveAtom entries with
    | false => exact hrest
    | true => rfl

end

/-- A compiled predicate is an empty text exactly if it demands nothing. -/
theorem Predicate.toSql_isEmpty (catalog : Catalog) (connective : Connective)
    (predicate : Predicate) (sql : String) (hok : predicate.toSql catalog connective = .ok sql) :
    sql.isEmpty = !predicate.hasAtom := by
  obtain ⟨entries⟩ := predicate
  obtain ⟨clauses, hclauses, rfl⟩ := exists_of_map_eq_ok hok
  exact (tells_entryClauses hclauses).isEmpty_join connective

end DescriptorSql
