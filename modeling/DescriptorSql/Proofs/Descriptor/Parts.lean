import DescriptorSql.Compile.Overlay
import DescriptorSql.Proofs.Compile.Agreement
import DescriptorSql.Proofs.Descriptor.Parsing

/-!
# `Proofs/Descriptor/Parts.lean` — predicates inside predicates

A predicate holds predicates: in its groups and negations, and in its subqueries, whose own
conditions, conditions on groups and joins have some (`Condition.parts`). Those that can be reached
in this way, at any depth, are within it (`Predicate.Within`). What is within a predicate that was
read was read itself (`Predicate.IsRead.of_within`), so what the grammar says of the operands of one
operator holds of every operator in a descriptor.
-/

set_option autoImplicit false

namespace DescriptorSql

/-! ## Parts -/

/-- The predicates of a query: its own and those of its joins, and the one on its groups. -/
def QueryBody.predicates (body : QueryBody) : List Predicate := body.filters ++ body.having.toList

def Operand.queries : Operand → List (String × SubQuery)
  | .value _ | .list _ => []
  | .subqueries queries => queries
  | .quantified groups => groups.flatMap Prod.snd

/-- The predicates directly inside a condition. -/
def Condition.parts : Condition → List Predicate
  | .anyOf branches | .allOf branches => branches
  | .negation inner => [inner]
  | .existence entries => entries.flatMap fun (_, body) => body.toSubQuery.body.predicates
  | .equals _ => []
  | .comparisons entries => entries.flatMap fun (_, operand) =>
    operand.queries.flatMap fun (_, query) => query.body.predicates

/-- The first predicate is the second one or inside it, at any depth. -/
inductive Predicate.Within : Predicate → Predicate → Prop
  | self {predicate : Predicate} : Within predicate predicate
  | inside {inner part predicate : Predicate} {key : String} {condition : Condition} :
      (key, condition) ∈ predicate.entries → part ∈ condition.parts → Within inner part →
      Within inner predicate

/-- The predicate asks for the operator with the operand, of some column. -/
def Predicate.Compares (predicate : Predicate) (operator : Operator) (operand : Operand) : Prop :=
  ∃ key comparisons, (key, .comparisons comparisons) ∈ predicate.entries ∧
    (operator, operand) ∈ comparisons

theorem QueryBody.mem_predicates {body : QueryBody} {predicate : Predicate} :
    predicate ∈ body.predicates ↔ body.filter = some predicate ∨ body.having = some predicate ∨
      ∃ entry ∈ body.leftJoin ++ body.rightJoin ++ body.innerJoin ++ body.fullJoin,
        entry.2.filter = some predicate := by
  have hfilters : body.filters = body.filter.toList ++
      (body.leftJoin ++ body.rightJoin ++ body.innerJoin ++ body.fullJoin).filterMap
        fun entry => entry.2.filter := by
    simp only [filters, joins, List.filterMap_append, List.filterMap_map]
    rfl
  rw [predicates, hfilters]
  simp only [List.mem_append, Option.mem_toList, List.mem_filterMap]
  rw [or_right_comm, or_assoc]

/-! ## Sizes -/

theorem QueryBody.sizeOf_lt_of_mem_predicates {body : QueryBody} {predicate : Predicate}
    (h : predicate ∈ body.predicates) : sizeOf predicate < sizeOf body := by
  rw [mem_predicates] at h
  obtain ⟨select, filter, groupBy, having, orderBy, limit, offset, left, right, inner, full⟩ := body
  rw [QueryBody.mk.sizeOf_spec]
  rcases h with rfl | rfl | ⟨⟨name, ⟨columns, filter⟩⟩, hjoin, rfl⟩
  · rw [Option.some.sizeOf_spec]
    omega
  · rw [Option.some.sizeOf_spec]
    omega
  · have hlt : sizeOf predicate < sizeOf (name, JoinQuery.mk columns (some predicate)) := by
      rw [Prod.mk.sizeOf_spec, JoinQuery.mk.sizeOf_spec, Option.some.sizeOf_spec]
      omega
    simp only [List.mem_append] at hjoin
    rcases hjoin with ((hjoin | hjoin) | hjoin) | hjoin
    all_goals
      have hmem := List.sizeOf_lt_of_mem hjoin
      omega

theorem SubQuery.sizeOf_body_lt (query : SubQuery) : sizeOf query.body < sizeOf query := by
  obtain ⟨table, body⟩ := query
  rw [SubQuery.mk.sizeOf_spec]
  dsimp only
  omega

theorem Operand.sizeOf_lt_of_mem_queries {operand : Operand} {entry : String × SubQuery}
    (h : entry ∈ operand.queries) : sizeOf entry.2 < sizeOf operand := by
  obtain ⟨name, query⟩ := entry
  have hlt : ∀ queries : List (String × SubQuery), (name, query) ∈ queries →
      sizeOf query < sizeOf queries := by
    intro queries hmem
    have hsize := List.sizeOf_lt_of_mem hmem
    rw [Prod.mk.sizeOf_spec] at hsize
    omega
  cases operand with
  | value | list => cases h
  | subqueries queries =>
    rw [Operand.subqueries.sizeOf_spec]
    have hsize := hlt queries h
    dsimp only
    omega
  | quantified groups =>
    obtain ⟨⟨quantifier, queries⟩, hgroup, hquery⟩ := List.mem_flatMap.mp h
    have hsize := hlt queries hquery
    have hgroups := List.sizeOf_lt_of_mem hgroup
    rw [Prod.mk.sizeOf_spec] at hgroups
    rw [Operand.quantified.sizeOf_spec]
    dsimp only
    omega

theorem Condition.sizeOf_lt_of_mem_parts {condition : Condition} {part : Predicate}
    (h : part ∈ condition.parts) : sizeOf part < sizeOf condition := by
  cases condition with
  | anyOf branches | allOf branches =>
    have hsize := List.sizeOf_lt_of_mem (show part ∈ branches from h)
    simp only [Condition.anyOf.sizeOf_spec, Condition.allOf.sizeOf_spec]
    omega
  | negation inner =>
    cases List.mem_singleton.mp h
    rw [Condition.negation.sizeOf_spec]
    omega
  -- two steps down: from the condition to a body, and from there to its predicates
  | existence entries =>
    obtain ⟨⟨name, body⟩, hentry, hpart⟩ := List.mem_flatMap.mp h
    have hsize := List.sizeOf_lt_of_mem hentry
    rw [Prod.mk.sizeOf_spec] at hsize
    cases body with
    | anyRow => cases hpart
    | rowsOf query =>
      have hpart := QueryBody.sizeOf_lt_of_mem_predicates hpart
      have hbody := query.sizeOf_body_lt
      rw [ExistsBody.rowsOf.sizeOf_spec] at hsize
      rw [Condition.existence.sizeOf_spec]
      dsimp only [ExistsBody.toSubQuery] at hpart
      omega
  | equals value => cases h
  | comparisons entries =>
    obtain ⟨⟨operator, operand⟩, hentry, hqueries⟩ := List.mem_flatMap.mp h
    obtain ⟨⟨name, query⟩, hquery, hpart⟩ := List.mem_flatMap.mp hqueries
    have hsize := List.sizeOf_lt_of_mem hentry
    have hoperand := Operand.sizeOf_lt_of_mem_queries hquery
    have hpart := QueryBody.sizeOf_lt_of_mem_predicates hpart
    have hbody := query.sizeOf_body_lt
    rw [Prod.mk.sizeOf_spec] at hsize
    rw [Condition.comparisons.sizeOf_spec]
    dsimp only at hoperand hpart
    omega

/-- A part of a condition is smaller than the predicate. -/
theorem Predicate.sizeOf_lt_of_mem_parts {predicate part : Predicate} {key : String}
    {condition : Condition} (hentry : (key, condition) ∈ predicate.entries)
    (hpart : part ∈ condition.parts) : sizeOf part < sizeOf predicate := by
  obtain ⟨entries⟩ := predicate
  have hsize := List.sizeOf_lt_of_mem (show (key, condition) ∈ entries from hentry)
  have hcondition := Condition.sizeOf_lt_of_mem_parts hpart
  rw [Prod.mk.sizeOf_spec] at hsize
  rw [Predicate.ofEntries.sizeOf_spec]
  omega

/-! ## What the fields of a record bring in -/

theorem storeJoinField_filter {name : String} {value : Json} {filter : Option Predicate}
    {join next : JoinQuery} (h : storeJoinField name value (fun _ => .ok filter) join = .ok next) :
    next.filter = join.filter ∨ next.filter = filter := by
  unfold storeJoinField at h
  split at h
  · obtain ⟨columns, -, hnext⟩ := exists_of_bind_eq_ok h
    cases hnext
    exact Or.inl rfl
  · cases h
    exact Or.inr rfl
  · cases h
    exact Or.inl rfl

/-- A field of a query brings in what its value is read as, and keeps what it does not replace. -/
theorem mem_predicates_of_store {name : String} {value : Json} {filter : Option Predicate}
    {joins : List (String × JoinQuery)} {query next : SubQuery}
    (h : storeSubQueryField name value (fun _ => .ok filter) (fun _ => .ok joins) query = .ok next)
    {predicate : Predicate} (hmem : predicate ∈ next.body.predicates) :
    predicate ∈ query.body.predicates ∨ filter = some predicate ∨
      ∃ entry ∈ joins, entry.2.filter = some predicate := by
  rw [QueryBody.mem_predicates] at hmem ⊢
  unfold storeSubQueryField storeBodyField at h
  split at h
  · obtain ⟨table, -, hnext⟩ := exists_of_bind_eq_ok h
    cases hnext
    exact Or.inl hmem
  · obtain ⟨body, hbody, hnext⟩ := exists_of_bind_eq_ok h
    cases hnext
    split at hbody
    all_goals
      first
        | obtain ⟨part, hpart, hbody⟩ := exists_of_bind_eq_ok hbody
          cases hbody
        | cases hbody
    all_goals
      simp only [List.mem_append] at hmem ⊢
      grind

/-! ## What is read inside -/

def Predicate.IsRead (predicate : Predicate) : Prop := ∃ json, PredicateReads json predicate

/-- What every field keeps, the record has at the end. -/
theorem FoldReads.invariant {α σ : Type} {Step : α → σ → σ → Prop} {P : σ → Prop}
    (hstep : ∀ item state next, Step item state next → P state → P next) {items : List α}
    {start result : σ} (h : FoldReads Step items start result) (hstart : P start) : P result := by
  induction h with
  | nil => exact hstart
  | cons hitem _ ih => exact ih (hstep _ _ _ hitem hstart)

theorem RecordReads.invariant {σ : Type} {form : RecordForm} {Field : String × Json → σ → σ → Prop}
    {P : σ → Prop} (hfield : ∀ item state next, Field item state next → P state → P next)
    {start result : σ} {value : Json} (h : RecordReads form Field start value result)
    (hstart : P start) : P result := by
  cases h with
  | members hfields => exact hfields.invariant hfield hstart
  | items _ hfields => exact hfields.invariant hfield hstart

namespace Predicate.IsRead

variable {predicate : Predicate} {value : Json}

theorem of_filter (h : FilterReads value (some predicate)) : predicate.IsRead := by
  cases h with
  | predicate hpredicate => exact ⟨value, hpredicate⟩

theorem of_join {join : JoinQuery} (h : JoinReads value join)
    (hfilter : join.filter = some predicate) : predicate.IsRead := by
  refine h.invariant (P := fun join => join.filter = some predicate → predicate.IsRead)
    ?_ ?_ hfilter
  · intro item join next hfield hjoin hnext
    cases hfield with
    | plain _ hstore =>
      rcases storeJoinField_filter hstore with hsame | hnone
      · exact hjoin (hsame ▸ hnext)
      · cases hnone.symm.trans hnext
    | filter _ hread =>
      cases hnext
      exact of_filter hread
  · intro hnone
    cases hnone

theorem of_query {query : SubQuery} (h : SubQueryReads value query)
    (hmem : predicate ∈ query.body.predicates) : predicate.IsRead := by
  refine h.invariant (P :=
    fun query => predicate ∈ query.body.predicates → predicate.IsRead) ?_ ?_ hmem
  · intro item query next hfield hquery hnext
    cases hfield with
    | plain _ hstore =>
      rcases mem_predicates_of_store hstore hnext with hmem | hnone | ⟨entry, hnone, -⟩
      · exact hquery hmem
      · cases hnone
      · cases hnone
    | filter _ hread hstore =>
      rcases mem_predicates_of_store hstore hnext with hmem | rfl | ⟨entry, hnone, -⟩
      · exact hquery hmem
      · exact of_filter hread
      · cases hnone
    | joins _ hread hstore =>
      rcases mem_predicates_of_store hstore hnext with hmem | hnone | ⟨entry, hentry, hfilter⟩
      · exact hquery hmem
      · cases hnone
      · obtain ⟨member, -, ⟨hjoin⟩⟩ := exists_mem_of_forall₂ hread hentry
        exact of_join hjoin hfilter
  · intro hnone
    cases hnone

/-- What is directly inside an entry that was read was read. -/
theorem of_entry {member : String × Json} {key : String} {condition : Condition}
    (h : EntryReads member (key, condition)) (hpart : predicate ∈ condition.parts) :
    predicate.IsRead := by
  cases h with
  | anyOf _ hbranches | allOf _ hbranches =>
    obtain ⟨item, -, hread⟩ := exists_mem_of_forall₂ hbranches hpart
    exact ⟨item, hread⟩
  | negation _ hinner =>
    cases List.mem_singleton.mp hpart
    exact ⟨_, hinner⟩
  -- the grammar reads the bodies of tests and of subqueries as queries
  | existence _ hentries =>
    obtain ⟨⟨name, body⟩, hentry, hpart⟩ := List.mem_flatMap.mp hpart
    obtain ⟨member, -, hread⟩ := exists_mem_of_forall₂ hentries hentry
    cases hread with
    | anyRow => cases hpart
    | rowsOf hquery => exact of_query hquery hpart
  | equals => cases hpart
  | comparisons _ hentries =>
    obtain ⟨⟨operator, operand⟩, hentry, hqueries⟩ := List.mem_flatMap.mp hpart
    obtain ⟨⟨name, query⟩, hquery, hpart⟩ := List.mem_flatMap.mp hqueries
    obtain ⟨member, -, hread⟩ := exists_mem_of_forall₂ hentries hentry
    cases hread with
    | list | value => cases hquery
    | subqueries _ _ hreads =>
      obtain ⟨member, -, ⟨hread⟩⟩ := exists_mem_of_forall₂ hreads hquery
      exact of_query hread hpart
    | quantified _ _ _ hgroups =>
      obtain ⟨group, hgroup, hquery⟩ := List.mem_flatMap.mp hquery
      obtain ⟨member, -, hread⟩ := exists_mem_of_forall₂ hgroups hgroup
      cases hread with
      | rows _ hreads =>
        obtain ⟨member, -, ⟨hread⟩⟩ := exists_mem_of_forall₂ hreads hquery
        exact of_query hread hpart

/-- What is within a predicate that was read was read. -/
theorem of_within {inner : Predicate} (hread : predicate.IsRead) (h : inner.Within predicate) :
    inner.IsRead := by
  induction h with
  | self => exact hread
  | inside hentry hpart _ ih =>
    obtain ⟨json, ⟨hentries⟩⟩ := hread
    obtain ⟨member, -, hmember⟩ := exists_mem_of_forall₂ hentries hentry
    exact ih (of_entry hmember hpart)

end Predicate.IsRead

/-! ## Operands -/

/-- The operator is written with operands of this form. -/
def Operand.fits (operator : Operator) : Operand → Bool
  | .list _ => true
  | .subqueries _ => operator.isMembership
  | .value _ | .quantified _ => !operator.isMembership && !operator.isRange

theorem Operand.fits_of_read {member : String × Json} {operator : Operator} {operand : Operand}
    (h : ComparisonReads member (operator, operand)) : operand.fits operator = true := by
  cases h with
  | list => rfl
  | subqueries _ hmembership => exact hmembership
  | value _ hmembership hrange | quantified _ hmembership hrange =>
    rw [Operand.fits, hmembership, hrange]
    rfl

/-- In a predicate that was read every operator has an operand that fits it. -/
theorem Predicate.IsRead.fits {predicate : Predicate} (hread : predicate.IsRead)
    {operator : Operator} {operand : Operand} (h : predicate.Compares operator operand) :
    operand.fits operator = true := by
  obtain ⟨json, ⟨hentries⟩⟩ := hread
  obtain ⟨key, comparisons, hentry, hcomparison⟩ := h
  obtain ⟨member, -, hmember⟩ := exists_mem_of_forall₂ hentries hentry
  cases hmember with
  | comparisons _ hreads =>
    obtain ⟨member, -, hread⟩ := exists_mem_of_forall₂ hreads hcomparison
    exact Operand.fits_of_read hread

end DescriptorSql
