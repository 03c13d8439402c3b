import DescriptorSql.Proofs.Compile.Sequence
import DescriptorSql.Proofs.Descriptor.Parts

/-!
# `Proofs/Compile/Failure.lean` — why a predicate does not compile

There are two reasons: a relation that is not in the catalog, and an operator with an operand that
it cannot be written with (`Operand.shapeError?`). Everything else that the compiler does passes an
error on, so an error of a predicate comes from the predicate itself or from one within it
(`Predicate.Fails.cause`). The operands of a predicate that was read fit their operators, except
that a list may not have the two items that a range takes; so nothing else is left of the second
reason.
-/

set_option autoImplicit false

namespace DescriptorSql

variable {catalog : Catalog} {error : QueryError}

/-! ## Reasons -/

/-- The error names a relation that the catalog does not have. -/
def QueryError.IsUnknownRelation (catalog : Catalog) (error : QueryError) : Prop :=
  ∃ name, error = .relationNotFound name ∧ Entries.get? catalog name = none

/-- What is wrong with the operand of an operator, apart from what is inside it. -/
def Operand.shapeError? (operator : Operator) (operand : Operand) : Option QueryError :=
  if operator.isMembership then
    match operand with
    | .list _ | .value (.array _) | .subqueries _ => none
    | _ => some (.malformedOperator operator.name .listOrSubqueries)
  else if operator.isRange then
    match operand.values? with
    | some [_, _] => none
    | _ => some (.malformedOperator operator.name .pair)
  else
    match operand with
    | .subqueries _ => some (.malformedOperator operator.name .valueOrQuantified)
    | _ => none

/-- An operand that fits is wrong only in the number of its items. -/
theorem Operand.shapeError?_of_fits {operator : Operator} {operand : Operand}
    (hfits : operand.fits operator = true) (h : operand.shapeError? operator = some error) :
    operator.isRange = true ∧ ∃ items, operand = .list items ∧ items.length ≠ 2 ∧
      error = .malformedOperator operator.name .pair := by
  unfold Operand.shapeError? at h
  cases operand with
  | list items =>
    split at h
    · cases h
    split at h
    · next hrange =>
      split at h
      · cases h
      · next hpair =>
        cases h
        refine ⟨hrange, items, rfl, fun hlength => ?_, rfl⟩
        obtain ⟨low, high, rfl⟩ := List.length_eq_two.mp hlength
        exact hpair low high rfl
    · cases h
  | value value | quantified groups =>
    rw [Operand.fits, Bool.and_eq_true, Bool.not_eq_true', Bool.not_eq_true'] at hfits
    rw [hfits.1, hfits.2] at h
    cases h
  | subqueries queries =>
    rw [show operator.isMembership = true from hfits] at h
    cases h

/-- An entry of the predicate fails with the error. -/
def Predicate.Fails (catalog : Catalog) (error : QueryError) (predicate : Predicate) : Prop :=
  ∃ key condition, (key, condition) ∈ predicate.entries ∧
    conditionClauses catalog key condition = .error error

/-- The error is that of an unknown relation, or of one of the predicates. -/
def ComesFrom (catalog : Catalog) (error : QueryError) (predicates : List Predicate) : Prop :=
  error.IsUnknownRelation catalog ∨ ∃ predicate ∈ predicates, predicate.Fails catalog error

/-- An error of one of the predicates is one of more of them. -/
theorem ComesFrom.mono {predicates others : List Predicate} (h : ComesFrom catalog error predicates)
    (hsubset : predicates ⊆ others) : ComesFrom catalog error others :=
  h.imp_right fun ⟨predicate, hmem, hfails⟩ => ⟨predicate, hsubset hmem, hfails⟩

/-! ## Relations -/

/-- Looking up a relation fails if the catalog does not have it, and for no other reason. -/
theorem isUnknownRelation_of_resolve {name : String} (h : catalog.resolve name = .error error) :
    error.IsUnknownRelation catalog := by
  unfold Catalog.resolve at h
  split at h
  · cases h
  · next hnone =>
    cases h
    exact ⟨name, rfl, hnone⟩

theorem isUnknownRelation_of_subQueryPlace {name : String} {table? : Option String}
    (h : subQueryPlace catalog name table? = .error error) : error.IsUnknownRelation catalog := by
  cases table? with
  | some table => cases h
  | none =>
    rcases error_of_bind_eq_error h with h | ⟨relation, -, h⟩
    · exact isUnknownRelation_of_resolve h
    · cases h

theorem isUnknownRelation_of_joinsText {joins : List (JoinKind × String × JoinQuery)}
    (h : joinsText catalog joins = .error error) : error.IsUnknownRelation catalog := by
  have hjoins := error_of_map_eq_error (f := String.join) h
  clear h
  induction joins with
  | nil => cases hjoins
  | cons join rest ih =>
    rw [List.mapM_cons] at hjoins
    rcases error_of_bind_eq_error hjoins with hfirst | ⟨text, -, hrest⟩
    · exact isUnknownRelation_of_resolve
        (error_of_map_eq_error (f := Sql.relationJoin join.1) hfirst)
    · rcases error_of_bind_eq_error hrest with hrest | ⟨texts, -, hnone⟩
      · exact ih hrest
      · cases hnone

/-! ## Entries and queries -/

theorem exists_of_gather {entries : Entries String Clausal} (h : gather entries = .error error) :
    ∃ entry ∈ entries, entry.2 = .error error :=
  exists_of_sequence h rfl fun _ _ => rfl

namespace Predicate.Fails

variable {predicate : Predicate}

theorem of_entryClauses {entry : String × Clausal}
    (hentry : entry ∈ entryClauses catalog predicate.entries) (herror : entry.2 = .error error) :
    predicate.Fails catalog error := by
  rw [entryClauses_eq_map] at hentry
  obtain ⟨⟨key, condition⟩, hmem, rfl⟩ := List.mem_map.mp hentry
  exact ⟨key, condition, hmem, herror⟩

theorem of_gather (h : gather (entryClauses catalog predicate.entries) = .error error) :
    predicate.Fails catalog error := by
  obtain ⟨entry, hentry, herror⟩ := exists_of_gather h
  exact of_entryClauses hentry herror

theorem of_toSql {connective : Connective} (h : predicate.toSql catalog connective = .error error) :
    predicate.Fails catalog error :=
  of_gather (error_of_map_eq_error h)

/-- Of predicates that are laid over each other one fails. -/
theorem of_overlayText {predicates : List Predicate}
    (h : overlayText (predicates.map fun predicate => entryClauses catalog predicate.entries) =
      .error error) : ∃ predicate ∈ predicates, predicate.Fails catalog error := by
  cases predicates with
  | nil => cases h
  | cons first rest =>
    obtain ⟨entry, hentry, herror⟩ := exists_of_gather (error_of_map_eq_error h)
    obtain ⟨layer, hlayer, hentry⟩ := Entries.exists_of_mem_foldl_merge hentry
    have hlayer : layer ∈ (first :: rest).map fun predicate =>
        entryClauses catalog predicate.entries := hlayer
    obtain ⟨predicate, hpredicate, rfl⟩ := List.mem_map.mp hlayer
    exact ⟨predicate, hpredicate, of_entryClauses hentry herror⟩

end Predicate.Fails

namespace ComesFrom

/-- The joins of a body fail for a relation, and its conditions for one of its predicates. -/
theorem of_expandBody {body : QueryBody} (h : expandBody catalog body = .error error) :
    ComesFrom catalog error body.predicates := by
  rw [expandBody_eq, ← overlayText_filters, filterClauses_eq] at h
  rcases error_of_bind_eq_error h with h | ⟨joins, -, h⟩
  · exact Or.inl (isUnknownRelation_of_joinsText h)
  rcases error_of_bind_eq_error h with h | ⟨filter, -, h⟩
  · obtain ⟨predicate, hmem, hfails⟩ := Predicate.Fails.of_overlayText h
    exact Or.inr ⟨predicate, List.mem_append_left _ hmem, hfails⟩
  rcases error_of_bind_eq_error h with h | ⟨having, -, h⟩
  · obtain ⟨predicate, hmem, hfails⟩ := Predicate.Fails.of_overlayText h
    exact Or.inr ⟨predicate, List.mem_append_right _ hmem, hfails⟩
  · cases h

theorem of_subQueryTexts {kind : SubQueryKind} {entry : String × SubQuery}
    (h : subQueryTexts catalog kind entry = .error error) :
    ComesFrom catalog error entry.2.body.predicates := by
  rcases error_of_bind_eq_error h with h | ⟨place, -, h⟩
  · exact Or.inl (isUnknownRelation_of_subQueryPlace h)
  rcases error_of_bind_eq_error h with h | ⟨expansion, -, h⟩
  · exact of_expandBody h
  · cases h

theorem of_rowsTexts {keyword : String} {queries : List (String × SubQuery)}
    (h : rowsTexts catalog keyword queries = .error error) :
    ∃ entry ∈ queries, ComesFrom catalog error entry.2.body.predicates := by
  obtain ⟨entry, hentry, herror⟩ := exists_of_sequence h rfl (rowsTexts_cons catalog keyword)
  exact ⟨entry, hentry, of_subQueryTexts herror⟩

theorem of_quantifiedTexts {groups : List (Quantifier × List (String × SubQuery))}
    (h : quantifiedTexts catalog groups = .error error) :
    ∃ entry ∈ groups.flatMap Prod.snd, ComesFrom catalog error entry.2.body.predicates := by
  obtain ⟨⟨quantifier, queries⟩, hgroup, herror⟩ :=
    exists_of_sequence (g := fun group => rowsTexts catalog group.1.sql group.2) h rfl fun _ _ =>
      rfl
  obtain ⟨entry, hentry, hcause⟩ := of_rowsTexts herror
  exact ⟨entry, List.mem_flatMap.mpr ⟨_, hgroup, hentry⟩, hcause⟩

end ComesFrom

/-! ## Conditions -/

/-- A range fails if it does not have two values. -/
theorem shapeError?_of_rangeClauses {field : String} {operator : Operator} {operand : Operand}
    (hmembership : operator.isMembership = false) (hrange : operator.isRange = true)
    (h : rangeClauses field operator operand = .error error) :
    operand.shapeError? operator = some error := by
  unfold rangeClauses at h
  unfold Operand.shapeError?
  rw [if_neg (by simp [hmembership]), if_pos hrange]
  -- only a list of two items has a clause
  rcases hvalues : operand.values? with _ | _ | ⟨low, _ | ⟨high, _ | ⟨other, rest⟩⟩⟩
  all_goals
    rw [hvalues] at h
    cases h
  all_goals rfl

/-- An operator fails for the shape of its operand, or for a query in it. -/
theorem error_of_operandClauses {field : String} {operator : Operator} {operand : Operand}
    (h : operandClauses catalog field operator operand = .error error) :
    operand.shapeError? operator = some error ∨
      ∃ entry ∈ operand.queries, ComesFrom catalog error entry.2.body.predicates := by
  unfold operandClauses at h
  split at h
  · next hmembership =>
    split at h
    · cases h
    · cases h
    · exact Or.inr (ComesFrom.of_rowsTexts (error_of_map_eq_error h))
    · cases h
      refine Or.inl ?_
      unfold Operand.shapeError?
      rw [if_pos hmembership]
      split <;> simp_all
  · next hmembership =>
    rw [Bool.not_eq_true] at hmembership
    split at h
    · next hrange => exact Or.inl (shapeError?_of_rangeClauses hmembership hrange h)
    · next hrange =>
      split at h
      · cases h
      · cases h
      · exact Or.inr (ComesFrom.of_quantifiedTexts (error_of_map_eq_error h))
      · cases h
        refine Or.inl ?_
        unfold Operand.shapeError?
        rw [if_neg (by simp [hmembership]), if_neg hrange]

/-- A condition fails for the shape of an operand, or for something inside it. -/
theorem error_of_conditionClauses {field : String} {condition : Condition}
    (h : conditionClauses catalog field condition = .error error) :
    (∃ comparisons operator operand, condition = .comparisons comparisons ∧
      (operator, operand) ∈ comparisons ∧ operand.shapeError? operator = some error) ∨
        ComesFrom catalog error condition.parts := by
  have hbranches : ∀ {connective : Connective} {branches : List Predicate},
      branchTexts catalog connective branches = .error error →
      ComesFrom catalog error branches := by
    intro connective branches herror
    obtain ⟨branch, hbranch, herror⟩ :=
      exists_of_sequence herror rfl (branchTexts_cons catalog connective)
    exact Or.inr ⟨branch, hbranch, .of_toSql (error_of_map_eq_error herror)⟩
  cases condition with
  | anyOf branches | allOf branches => exact Or.inr (hbranches (error_of_map_eq_error h))
  | negation inner =>
    obtain ⟨entries⟩ := inner
    exact Or.inr (Or.inr ⟨_, List.mem_singleton_self _, .of_gather (error_of_map_eq_error h)⟩)
  | existence entries =>
    obtain ⟨entry, hentry, herror⟩ :=
      exists_of_sequence (error_of_map_eq_error h) rfl (existenceTexts_cons catalog)
    refine Or.inr ((ComesFrom.of_subQueryTexts herror).mono fun predicate hpredicate => ?_)
    exact List.mem_flatMap.mpr ⟨entry, hentry, hpredicate⟩
  | equals value => cases h
  | comparisons entries =>
    obtain ⟨⟨operator, operand⟩, hentry, herror⟩ := exists_of_sequence
      (g := fun entry => operandClauses catalog field entry.1 entry.2) h rfl fun _ _ => rfl
    rcases error_of_operandClauses herror with hshape | ⟨query, hquery, hcause⟩
    · exact Or.inl ⟨entries, operator, operand, rfl, hentry, hshape⟩
    · refine Or.inr (hcause.mono fun predicate hpredicate => ?_)
      exact List.mem_flatMap.mpr ⟨_, hentry, List.mem_flatMap.mpr ⟨query, hquery, hpredicate⟩⟩

/-! ## Predicates -/

/-- An error of a predicate is that of an unknown relation, or of an operator in it whose operand
has not the right shape. -/
theorem Predicate.Fails.cause {predicate : Predicate} (h : predicate.Fails catalog error) :
    error.IsUnknownRelation catalog ∨ ∃ (inner : Predicate) (operator : Operator)
      (operand : Operand), inner.Within predicate ∧ inner.Compares operator operand ∧
        operand.shapeError? operator = some error := by
  obtain ⟨key, condition, hentry, herror⟩ := h
  rcases error_of_conditionClauses herror with
    ⟨comparisons, operator, operand, rfl, hcomparison, hshape⟩ | hunknown | ⟨part, hpart, hfails⟩
  · exact Or.inr
      ⟨predicate, operator, operand, .self, ⟨key, comparisons, hentry, hcomparison⟩, hshape⟩
  · exact Or.inl hunknown
  · have hsize := Predicate.sizeOf_lt_of_mem_parts hentry hpart
    rcases hfails.cause with hunknown | ⟨inner, operator, operand, hinner, hcompares, hshape⟩
    · exact Or.inl hunknown
    · exact Or.inr ⟨inner, operator, operand, .inside hentry hpart hinner, hcompares, hshape⟩
termination_by sizeOf predicate

/-- A predicate that was read, and every predicate within it, compiles unless a relation is not in
the catalog or `between` or `notBetween` has a list that is not of two items. -/
theorem Predicate.toSql_error_cases {json : Json} {predicate inner : Predicate}
    (hread : Predicate.ofJson? json = .ok predicate) (hinner : inner.Within predicate)
    {connective : Connective} (herror : inner.toSql catalog connective = .error error) :
    (∃ name, error = .relationNotFound name ∧ Entries.get? catalog name = none) ∨
      ∃ (deep : Predicate) (operator : Operator) (items : List Json), deep.Within inner ∧
        deep.Compares operator (.list items) ∧ (operator = .between ∨ operator = .notBetween) ∧
        items.length ≠ 2 ∧ error = .malformedOperator operator.name .pair := by
  have hinner : inner.IsRead := .of_within ⟨json, (faithful_predicate json).ok_iff.mp hread⟩ hinner
  rcases (Fails.of_toSql herror).cause with
    hunknown | ⟨deep, operator, operand, hdeep, hcompares, hshape⟩
  · exact Or.inl hunknown
  · have hfits := (hinner.of_within hdeep).fits hcompares
    obtain ⟨hrange, items, rfl, hlength, rfl⟩ := Operand.shapeError?_of_fits hfits hshape
    have hoperator : operator = .between ∨ operator = .notBetween := by
      cases operator <;> simp_all [Operator.isRange]
    exact Or.inr ⟨deep, operator, items, hdeep, hcompares, hoperator, hlength, rfl⟩

/-- A range with one bound. -/
def openRange : Predicate :=
  .ofEntries [("price", .comparisons [(.between, .list [.number (.int 1)])])]

/-- The range in a subquery. -/
def openRangeInside : Predicate :=
  .ofEntries [("exists", .existence
    [("albums", .rowsOf ⟨none, { QueryBody.empty with filter := some openRange }⟩)])]

def openRangeJson : Json :=
  .object [("exists", .object [("albums", .object [("where", .object [("price",
    .object [("between", .array [.number (.int 1)])])])])])]

theorem toSql_openRange :
    Predicate.ofJson? openRangeJson = .ok openRangeInside ∧ openRange.Within openRangeInside ∧
      ∃ error, openRange.toSql [] .and = .error error ∧
        ((∃ name, error = .relationNotFound name ∧ Entries.get? ([] : Catalog) name = none) ∨
          ∃ (deep : Predicate) (operator : Operator) (items : List Json), deep.Within openRange ∧
            deep.Compares operator (.list items) ∧ (operator = .between ∨ operator = .notBetween) ∧
            items.length ≠ 2 ∧ error = .malformedOperator operator.name .pair) := by
  have hread : Predicate.ofJson? openRangeJson = .ok openRangeInside := rfl
  have hinside : openRange.Within openRangeInside :=
    .inside List.mem_cons_self (List.mem_singleton_self openRange) .self
  have herror : openRange.toSql [] .and = .error (.malformedOperator "between" .pair) := rfl
  exact ⟨hread, hinside, _, herror, Predicate.toSql_error_cases hread hinside herror⟩

end DescriptorSql
