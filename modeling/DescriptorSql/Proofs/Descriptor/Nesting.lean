import DescriptorSql.Proofs.Descriptor.Parts

/-!
# `Proofs/Descriptor/Nesting.lean` — how deep a descriptor is nested

A predicate is one level deeper than the deepest predicate directly inside it, in a group, a
negation or a subquery, and a query as deep as its deepest predicate or one level deeper than a
query nested into its rows. That counts what is written in the descriptor and does not ask what a
relation is.

Laying predicates over each other nests nothing (`nesting_foldl_merge`): the result has entries of
the ones and of the others.
-/

set_option autoImplicit false

namespace DescriptorSql

/-! ## Predicates -/

namespace Predicate

/-- The predicates directly inside a predicate. -/
def parts (predicate : Predicate) : List Predicate :=
  predicate.entries.flatMap fun (_, condition) => condition.parts

/-- A predicate inside another is smaller, on which the recursions rest. -/
theorem sizeOf_lt_of_mem_predicate_parts {predicate part : Predicate} (h : part ∈ predicate.parts) :
    sizeOf part < sizeOf predicate := by
  obtain ⟨⟨key, condition⟩, hentry, hpart⟩ := List.mem_flatMap.mp h
  exact sizeOf_lt_of_mem_parts hentry hpart

/-- The levels of groups, negations and subqueries in a predicate, itself included. -/
def nesting (predicate : Predicate) : Nat :=
  (predicate.parts.attach.map fun ⟨part, _⟩ => part.nesting).foldr max 0 + 1
termination_by sizeOf predicate
decreasing_by exact sizeOf_lt_of_mem_predicate_parts ‹_›

end Predicate

/-- The levels of the deepest of the predicates. -/
def maxNesting (predicates : List Predicate) : Nat := (predicates.map Predicate.nesting).foldr max 0

/-- The count, without the proofs that carry its recursion. -/
theorem Predicate.nesting_eq (predicate : Predicate) :
    predicate.nesting = maxNesting predicate.parts + 1 := by
  rw [nesting, maxNesting, List.attach_map_val (f := Predicate.nesting)]

/-- The deepest is as deep as all of them are at most. -/
theorem maxNesting_le_iff {predicates : List Predicate} {n : Nat} :
    maxNesting predicates ≤ n ↔ ∀ predicate ∈ predicates, predicate.nesting ≤ n := by
  induction predicates with
  | nil => simp [maxNesting]
  | cons first rest ih =>
    rw [List.forall_mem_cons, ← ih]
    exact Nat.max_le

theorem nesting_le_maxNesting {predicates : List Predicate} {predicate : Predicate}
    (h : predicate ∈ predicates) : predicate.nesting ≤ maxNesting predicates :=
  maxNesting_le_iff.mp (Nat.le_refl _) predicate h

theorem maxNesting_le_of_subset {predicates others : List Predicate} (h : predicates ⊆ others) :
    maxNesting predicates ≤ maxNesting others :=
  maxNesting_le_iff.mpr fun _ hmem => nesting_le_maxNesting (h hmem)

/-- The predicates inside a condition are less deep than the predicate that has it. -/
theorem Predicate.maxNesting_parts_lt {predicate : Predicate} {entry : String × Condition}
    (h : entry ∈ predicate.entries) : maxNesting entry.2.parts < predicate.nesting := by
  rw [nesting_eq]
  exact Nat.lt_succ_of_le
    (maxNesting_le_of_subset fun part hpart => List.mem_flatMap.mpr ⟨entry, h, hpart⟩)

/-- Merging takes entries from either side, and none gets deeper by it. -/
theorem Predicate.nesting_foldl_merge (first : Predicate) (rest : List Predicate) :
    (rest.foldl Predicate.merge first).nesting ≤ maxNesting (first :: rest) := by
  have hpart : ∀ part ∈ (rest.foldl Predicate.merge first).parts,
      part.nesting < maxNesting (first :: rest) := by
    intro part hpart
    obtain ⟨entry, hentry, hpart⟩ := List.mem_flatMap.mp hpart
    obtain ⟨predicate, hmem, hentry⟩ := exists_of_mem_foldl_merge hentry
    exact Nat.lt_of_le_of_lt (nesting_le_maxNesting hpart)
      (Nat.lt_of_lt_of_le (maxNesting_parts_lt hentry) (nesting_le_maxNesting hmem))
  have hfirst : first.nesting ≤ maxNesting (first :: rest) :=
    nesting_le_maxNesting List.mem_cons_self
  have hparts :
      maxNesting (rest.foldl Predicate.merge first).parts ≤ maxNesting (first :: rest) - 1 :=
    maxNesting_le_iff.mpr fun part hmem => Nat.le_sub_one_of_lt (hpart part hmem)
  rw [nesting_eq] at hfirst ⊢
  omega

/-! ## Queries -/

/-- The levels of the predicates of a body. -/
def QueryBody.nesting (body : QueryBody) : Nat := maxNesting body.predicates

/-- The condition of a body is not deeper than the predicates that it is made of. -/
theorem QueryBody.nesting_mergedFilter {body : QueryBody} {predicate : Predicate}
    (h : body.mergedFilter = some predicate) : predicate.nesting ≤ body.nesting := by
  unfold mergedFilter at h
  split at h
  · cases h
  · next first rest hfilters =>
    cases h
    refine Nat.le_trans (Predicate.nesting_foldl_merge first rest) ?_
    rw [← hfilters]
    exact maxNesting_le_of_subset (List.subset_append_left _ _)

theorem QueryBody.nesting_having {body : QueryBody} {predicate : Predicate}
    (h : body.having = some predicate) : predicate.nesting ≤ body.nesting :=
  nesting_le_maxNesting (List.mem_append_right _ (Option.mem_toList.mpr h))

mutual

/-- The levels of a query's predicates and of the queries nested into its rows. -/
def SelectQuery.nesting : SelectQuery → Nat
  | .mk body includes => max body.nesting (includesNesting includes)

def includesNesting : List (String × SelectQuery) → Nat
  | [] => 0
  | (_, query) :: rest => max (query.nesting + 1) (includesNesting rest)

end

/-- The conditions of a query are no deeper than the query. -/
theorem SelectQuery.nesting_body_le (query : SelectQuery) : query.body.nesting ≤ query.nesting := by
  obtain ⟨body, includes⟩ := query
  exact Nat.le_max_left _ _

/-- A nested query is a level below the one it is nested into. -/
theorem SelectQuery.nesting_lt_of_mem_includes {query : SelectQuery} {entry : String × SelectQuery}
    (h : entry ∈ query.includes) : entry.2.nesting < query.nesting := by
  obtain ⟨body, includes⟩ := query
  have hincludes : ∀ entries : List (String × SelectQuery), entry ∈ entries →
      entry.2.nesting < includesNesting entries := by
    intro entries hmem
    induction entries with
    | nil => cases hmem
    | cons first rest ih =>
      rw [includesNesting]
      rcases List.mem_cons.mp hmem with rfl | hmem
      · exact Nat.le_max_left _ _
      · exact Nat.lt_of_lt_of_le (ih hmem) (Nat.le_max_right _ _)
  exact Nat.lt_of_lt_of_le (hincludes includes h) (Nat.le_max_right _ _)

end DescriptorSql
