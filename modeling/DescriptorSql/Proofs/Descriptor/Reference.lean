import DescriptorSql.Compile.Overlay
import DescriptorSql.Proofs.Descriptor.Traversal

/-!
# `Proofs/Descriptor/Reference.lean` — where a descriptor names relations

A descriptor names a relation by nesting it, by joining it and by a subquery that has no table of
its own. The conditions of a query and of its joins are laid over each other before they are
compiled, and an entry whose key is written again is gone with everything in it. So there are two
lists: all that is mentioned (`Harvest.mentions`), and the references that are left
(`Harvest.references`). Nothing else is left out: an entry whose key is not written again keeps its
references (`Harvest.condition_subset_body`).
-/

set_option autoImplicit false

namespace DescriptorSql

/-- A place that names a relation. -/
inductive Reference where
  | joined (name : String)
  /-- A subquery over the relation's rows. -/
  | rows (kind : SubQueryKind) (name : String) (body : QueryBody)
  | nested (name : String) (query : SelectQuery)

namespace Reference

/-- The relation that is named. -/
def name : Reference → String
  | joined name => name
  | rows _ name _ => name
  | nested name _ => name

/-- What is written in the place: the query over the relation's rows. -/
def written : Reference → List Written
  | joined _ => []
  | rows _ _ body => Harvest.written.body body
  | nested name query => .name name :: Harvest.written.query query

end Reference

namespace Harvest

/-- Every reference, also those in conditions that others are laid over. -/
def mentions : Harvest Reference where
  name _ := []
  value _ := []
  joined name := [.joined name]
  rows kind name body := [.rows kind name body]
  nested name query := [.nested name query]
  level levels := levels.flatMap all

/-- The references that are left when the conditions of a query and of its joins are laid over each
other. -/
def references : Harvest Reference := { mentions with level := overlaid }

/-! ## What is left -/

variable {α : Type} {levels : List (Entries String (List α))} {item : α}

theorem mem_all {entries : Entries String (List α)} :
    item ∈ all entries ↔ ∃ entry ∈ entries, item ∈ entry.2 := List.mem_flatMap

/-- Whatever is left was there before. -/
theorem mem_of_mem_overlaid (h : item ∈ overlaid levels) : item ∈ levels.flatMap all := by
  cases levels with
  | nil => cases h
  | cons first rest =>
    obtain ⟨entry, hentry, hitem⟩ := mem_all.mp h
    obtain ⟨level, hlevel, hentry⟩ := Entries.exists_of_mem_foldl_merge hentry
    exact List.mem_flatMap.mpr ⟨level, hlevel, mem_all.mpr ⟨entry, hentry, hitem⟩⟩

/-- An entry whose key is not written again is left. -/
theorem mem_overlaid_of_last {before after : Entries String (List α)} {key : String}
    {held : List α} (h : levels.flatten = before ++ (key, held) :: after)
    (hkey : key ∉ Entries.keys after) (hitem : item ∈ held) : item ∈ overlaid levels := by
  cases levels with
  | nil => simp at h
  | cons first rest =>
    rw [overlaid, Entries.foldl_merge, mem_all]
    refine ⟨(key, held), ?_, hitem⟩
    -- the entry stands in one of the overlays, or in the first level and then behind its front
    rw [List.flatten_cons, List.append_eq_append_iff] at h
    rcases h with ⟨between, -, hrest⟩ | ⟨front, hfirst, hafter⟩
    · rw [hrest, Entries.merge_append, Entries.merge]
      exact Entries.mem_merge_of_not_mem_keys (Entries.mem_insert_self _ key held) hkey
    · cases front with
      | nil =>
        rw [List.nil_append] at hafter
        rw [← hafter, Entries.merge]
        exact Entries.mem_merge_of_not_mem_keys (Entries.mem_insert_self _ key held) hkey
      | cons entry front =>
        rw [List.cons_append, List.cons.injEq] at hafter
        obtain ⟨rfl, rfl⟩ := hafter
        refine Entries.mem_merge_of_not_mem_keys (by simp [hfirst]) fun hmem => hkey ?_
        rw [Entries.keys, List.map_append, List.mem_append]
        exact Or.inr hmem

/-- The entries that a harvest collects from are those of the conditions, in the same order. -/
theorem entries_eq_map (h : Harvest α) (entries : List (String × Condition)) :
    h.entries entries =
      entries.map fun (field, condition) => (field, h.condition field condition) := by
  induction entries with
  | nil => rfl
  | cons entry rest ih =>
    obtain ⟨field, condition⟩ := entry
    rw [Harvest.entries, ih, List.map_cons]

/-- A condition is one layer of a level, and no condition is none. -/
theorem filter_eq (h : Harvest α) (filter : Option Predicate) :
    h.filter filter = filter.toList.map fun predicate => h.entries predicate.entries := by
  match filter with
  | none => rfl
  | some (.ofEntries entries) => rfl

/-- The conditions of joins are layers in the order of the joins. -/
theorem joinFilters_eq (h : Harvest α) (joins : List (String × JoinQuery)) :
    h.joinFilters joins =
      (joins.filterMap fun (_, join) => join.filter).map fun predicate =>
        h.entries predicate.entries := by
  induction joins with
  | nil => rfl
  | cons entry rest ih =>
    obtain ⟨name, select, filter⟩ := entry
    rw [joinFilters, ih, filter_eq]
    cases filter with
    | none => rfl
    | some predicate => rfl

/-- What an entry refers to is left in a body, unless its key is written again behind it. -/
theorem condition_subset_body {body : QueryBody} {before after : List (String × Condition)}
    {key : String} {condition : Condition}
    (h : body.filters.flatMap Predicate.entries = before ++ (key, condition) :: after)
    (hkey : key ∉ Entries.keys after) :
    references.condition key condition ⊆ references.body body := by
  -- the entries of all conditions of the body, each with its references
  have hlevels : (references.filter body.filter ++ references.joinFilters body.leftJoin ++
      references.joinFilters body.rightJoin ++ references.joinFilters body.innerJoin ++
      references.joinFilters body.fullJoin).flatten =
        references.entries (body.filters.flatMap Predicate.entries) := by
    simp only [QueryBody.filters, QueryBody.joins, filter_eq, joinFilters_eq, entries_eq_map,
      List.filterMap_append, List.filterMap_map, Function.comp_def, List.map_append,
      List.flatten_append, List.append_assoc, List.flatMap_def, List.map_flatten, List.map_map]
  rw [h, entries_eq_map, List.map_append, List.map_cons] at hlevels
  intro reference hreference
  have hleft : reference ∈ references.level _ :=
    mem_overlaid_of_last hlevels (by simpa [Entries.keys, Function.comp_def] using hkey) hreference
  obtain ⟨select, filter, groupBy, having, orderBy, limit, offset, left, right, inner, full⟩ := body
  rw [Harvest.body]
  exact List.mem_append_left _ (List.mem_append_right _ hleft)

/-! ## What is written in the places -/

variable {reference : Reference}

/-- The clauses of a body name relations by its joins only. -/
theorem mem_clauses_references {body : QueryBody} (h : reference ∈ references.clauses body) :
    ∃ join ∈ body.joins, reference = .joined join.2.1 := by
  have hcolumns : ∀ columns : Columns, references.columns columns = [] := by
    intro columns
    apply List.flatMap_eq_nil_iff.mpr
    rintro ⟨name, column⟩ _
    cases column <;> rfl
  have hbound : ∀ bound? : Option Bound, references.bound bound? = [] := by
    intro bound?
    match bound? with
    | none | some (.count n) | some (.placeholder text) => rfl
  have hname : references.name = fun _ => [] := rfl
  simp only [clauses, hcolumns, hbound, hname, List.append_nil, List.mem_append, List.mem_flatMap,
    List.not_mem_nil, and_false, exists_false, false_or] at h
  obtain ⟨⟨kind, name, join⟩, hjoin, hreference⟩ := h
  exact ⟨_, hjoin, List.mem_singleton.mp hreference⟩

/-- A place names the query over its rows, which it writes. -/
theorem written_subset_place {kind : SubQueryKind} {name : String} {table? : Option String}
    {body : QueryBody} (h : reference ∈ references.place kind name table? body) :
    reference.written ⊆ written.body body := by
  cases table? with
  | some table => cases h
  | none =>
    cases List.mem_singleton.mp h
    exact List.Subset.refl _

mutual

/-- The induction follows the descriptor. A reference is left in a part only if it is mentioned in
it, so what it writes is written by the part. -/
theorem written_subset_entries :
    ∀ {entries : List (String × Condition)}, reference ∈ all (references.entries entries) →
      reference.written ⊆ all (written.entries entries)
  | (field, condition) :: rest, h => by
    rcases List.mem_append.mp h with h | h
    · exact List.subset_append_of_subset_left _ (written_subset_condition h)
    · exact List.subset_append_of_subset_right _ (written_subset_entries h)

theorem written_subset_condition {field : String} :
    ∀ {condition : Condition}, reference ∈ references.condition field condition →
      reference.written ⊆ written.condition field condition
  | .anyOf _, h => written_subset_branches h
  | .allOf _, h => written_subset_branches h
  | .negation (.ofEntries _), h => written_subset_entries h
  | .existence _, h => written_subset_existence h
  | .comparisons _, h => written_subset_comparisons h

theorem written_subset_branches :
    ∀ {branches : List Predicate}, reference ∈ references.branches branches →
      reference.written ⊆ written.branches branches
  | .ofEntries entries :: rest, h => by
    rcases List.mem_append.mp h with h | h
    · exact List.subset_append_of_subset_left _ (written_subset_entries h)
    · exact List.subset_append_of_subset_right _ (written_subset_branches h)

theorem written_subset_existence :
    ∀ {entries : List (String × ExistsBody)}, reference ∈ references.existence entries →
      reference.written ⊆ written.existence entries
  | (name, .anyRow) :: rest, h => by
    rcases List.mem_append.mp h with h | h
    · cases List.mem_singleton.mp h
      exact List.nil_subset _
    · exact List.subset_append_of_subset_right _ (written_subset_existence h)
  | (name, .rowsOf ⟨table?, body⟩) :: rest, h => by
    rw [existence, List.mem_append, List.mem_append] at h
    rw [existence, List.append_assoc]
    refine List.subset_append_of_subset_right _ ?_
    rcases h with (h | h) | h
    · exact List.subset_append_of_subset_left _ (written_subset_place h)
    · exact List.subset_append_of_subset_left _ (written_subset_body h)
    · exact List.subset_append_of_subset_right _ (written_subset_existence h)

theorem written_subset_comparisons {field : String} :
    ∀ {entries : List (Operator × Operand)}, reference ∈ references.comparisons field entries →
      reference.written ⊆ written.comparisons field entries
  | (operator, operand) :: rest, h => by
    rcases List.mem_append.mp h with h | h
    · exact List.subset_append_of_subset_left _ (written_subset_operand h)
    · exact List.subset_append_of_subset_right _ (written_subset_comparisons h)

theorem written_subset_operand {field : String} {operator : Operator} :
    ∀ {operand : Operand}, reference ∈ references.operand field operator operand →
      reference.written ⊆ written.operand field operator operand
  | .subqueries _, h => List.subset_append_of_subset_right _ (written_subset_subqueries h)
  | .quantified _, h => List.subset_append_of_subset_right _ (written_subset_quantified h)

theorem written_subset_quantified :
    ∀ {groups : List (Quantifier × List (String × SubQuery))},
      reference ∈ references.quantified groups → reference.written ⊆ written.quantified groups
  | (quantifier, queries) :: rest, h => by
    rcases List.mem_append.mp h with h | h
    · exact List.subset_append_of_subset_left _ (written_subset_subqueries h)
    · exact List.subset_append_of_subset_right _ (written_subset_quantified h)

theorem written_subset_subqueries {keyword : String} :
    ∀ {queries : List (String × SubQuery)}, reference ∈ references.subqueries keyword queries →
      reference.written ⊆ written.subqueries keyword queries
  | (name, ⟨table?, body⟩) :: rest, h => by
    rw [subqueries, List.mem_append, List.mem_append] at h
    rw [subqueries, List.append_assoc]
    refine List.subset_append_of_subset_right _ ?_
    rcases h with (h | h) | h
    · exact List.subset_append_of_subset_left _ (written_subset_place h)
    · exact List.subset_append_of_subset_left _ (written_subset_body h)
    · exact List.subset_append_of_subset_right _ (written_subset_subqueries h)

/-- What is left of a level is less than all of it. -/
theorem written_subset_body :
    ∀ {body : QueryBody}, reference ∈ references.body body →
      reference.written ⊆ written.body body
  | ⟨select, filter, groupBy, having, orderBy, limit, offset, left, right, inner, full⟩, h => by
    rw [body, List.mem_append, List.mem_append] at h
    rw [body]
    rcases h with (h | h) | h
    · obtain ⟨join, -, rfl⟩ := mem_clauses_references h
      exact List.nil_subset _
    · refine List.subset_append_of_subset_left _ (List.subset_append_of_subset_right _ ?_)
      have h := mem_of_mem_overlaid h
      simp only [List.flatMap_append, List.mem_append] at h
      show _ ⊆ List.flatMap all _
      simp only [List.flatMap_append]
      rcases h with (((h | h) | h) | h) | h
      · exact fun text htext => by simp [written_subset_filter h htext]
      all_goals exact fun text htext => by simp [written_subset_joinFilters h htext]
    · exact List.subset_append_of_subset_right _ (written_subset_filter (mem_of_mem_overlaid h))

theorem written_subset_filter :
    ∀ {filter : Option Predicate}, reference ∈ (references.filter filter).flatMap all →
      reference.written ⊆ (written.filter filter).flatMap all
  | some (.ofEntries entries), h => by
    rw [filter, List.flatMap_singleton] at h ⊢
    exact written_subset_entries h

theorem written_subset_joinFilters :
    ∀ {joins : List (String × JoinQuery)}, reference ∈ (references.joinFilters joins).flatMap all →
      reference.written ⊆ (written.joinFilters joins).flatMap all
  | (_, ⟨_, filter⟩) :: rest, h => by
    rw [joinFilters, List.flatMap_append] at h ⊢
    rcases List.mem_append.mp h with h | h
    · exact List.subset_append_of_subset_left _ (written_subset_filter h)
    · exact List.subset_append_of_subset_right _ (written_subset_joinFilters h)

end

mutual

/-- What is written in the places of a query is written by the query. -/
theorem written_subset_query :
    ∀ {query : SelectQuery}, reference ∈ references.query query →
      reference.written ⊆ written.query query
  | .mk body includes, h => by
    rcases List.mem_append.mp h with h | h
    · exact List.subset_append_of_subset_left _ (written_subset_includes h)
    · exact List.subset_append_of_subset_right _ (written_subset_body h)

theorem written_subset_includes :
    ∀ {nested : List (String × SelectQuery)}, reference ∈ references.includes nested →
      reference.written ⊆ written.includes nested
  | (name, query) :: rest, h => by
    rw [includes, List.mem_append, List.mem_append] at h
    rw [includes]
    rcases h with (h | h) | h
    · cases List.mem_singleton.mp h
      exact List.subset_append_of_subset_left _ (List.Subset.refl _)
    · exact List.subset_append_of_subset_left _
        (List.subset_append_of_subset_right _ (written_subset_query h))
    · exact List.subset_append_of_subset_right _ (written_subset_includes h)

end

end Harvest

end DescriptorSql
