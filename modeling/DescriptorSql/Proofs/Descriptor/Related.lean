import DescriptorSql.Compile.Overlay
import Mathlib.Data.List.Forall2

/-!
# `Proofs/Descriptor/Related.lean` — descriptors that differ in their values

Two descriptors are related if one becomes the other by changing values, each into one that it is
related to: keys, names, operators and the shape of everything stay. Limits and offsets count as
values, and a condition may also be left as it is.

The conditions of a query's joins are laid over its own. Whatever is done to the values of the
conditions that are left can be done before they are laid over each other (`exists_foldl_merge`):
the values that were overwritten stay as they are.
-/

set_option autoImplicit false

namespace DescriptorSql

/-! ## Related descriptors -/

/-- Entries under the same key, with related values. -/
inductive Keyed {κ ν : Type} (R : ν → ν → Prop) : κ × ν → κ × ν → Prop
  | mk {key : κ} {v w : ν} : R v w → Keyed R (key, v) (key, w)

/-- A bound with a changed placeholder, or the same bound. -/
inductive Bound.Related (R : Json → Json → Prop) : Bound → Bound → Prop
  | same (bound : Bound) : Bound.Related R bound bound
  | placeholder {a b : String} : R (.string a) (.string b) →
      Bound.Related R (.placeholder a) (.placeholder b)

mutual

/-- A predicate whose conditions are related, under the same keys and in the same order. -/
inductive Predicate.Related (R : Json → Json → Prop) : Predicate → Predicate → Prop
  | ofEntries {entries entries' : List (String × Condition)} :
      List.Forall₂ (Keyed (Condition.Related R)) entries entries' →
      Predicate.Related R (.ofEntries entries) (.ofEntries entries')

/-- A condition of the same kind with related values, or the very same condition. -/
inductive Condition.Related (R : Json → Json → Prop) : Condition → Condition → Prop
  | same (condition : Condition) : Condition.Related R condition condition
  | anyOf {branches branches' : List Predicate} :
      List.Forall₂ (Predicate.Related R) branches branches' →
      Condition.Related R (.anyOf branches) (.anyOf branches')
  | allOf {branches branches' : List Predicate} :
      List.Forall₂ (Predicate.Related R) branches branches' →
      Condition.Related R (.allOf branches) (.allOf branches')
  | negation {inner inner' : Predicate} : Predicate.Related R inner inner' →
      Condition.Related R (.negation inner) (.negation inner')
  | existence {entries entries' : List (String × ExistsBody)} :
      List.Forall₂ (Keyed (ExistsBody.Related R)) entries entries' →
      Condition.Related R (.existence entries) (.existence entries')
  | equals {value value' : Json} : R value value' →
      Condition.Related R (.equals value) (.equals value')
  | comparisons {entries entries' : List (Operator × Operand)} :
      List.Forall₂ (Keyed (Operand.Related R)) entries entries' →
      Condition.Related R (.comparisons entries) (.comparisons entries')

inductive ExistsBody.Related (R : Json → Json → Prop) : ExistsBody → ExistsBody → Prop
  | anyRow : ExistsBody.Related R .anyRow .anyRow
  | rowsOf {query query' : SubQuery} : SubQuery.Related R query query' →
      ExistsBody.Related R (.rowsOf query) (.rowsOf query')

inductive Operand.Related (R : Json → Json → Prop) : Operand → Operand → Prop
  | value {value value' : Json} : R value value' → Operand.Related R (.value value) (.value value')
  | list {items items' : List Json} : List.Forall₂ R items items' →
      Operand.Related R (.list items) (.list items')
  | subqueries {queries queries' : List (String × SubQuery)} :
      List.Forall₂ (Keyed (SubQuery.Related R)) queries queries' →
      Operand.Related R (.subqueries queries) (.subqueries queries')
  | quantified {groups groups' : List (Quantifier × List (String × SubQuery))} :
      List.Forall₂ (Keyed (List.Forall₂ (Keyed (SubQuery.Related R)))) groups groups' →
      Operand.Related R (.quantified groups) (.quantified groups')

inductive JoinQuery.Related (R : Json → Json → Prop) : JoinQuery → JoinQuery → Prop
  | mk {select : List (String × Column)} {filter filter' : Option Predicate} :
      Option.Rel (Predicate.Related R) filter filter' →
      JoinQuery.Related R ⟨select, filter⟩ ⟨select, filter'⟩

inductive QueryBody.Related (R : Json → Json → Prop) : QueryBody → QueryBody → Prop
  | mk {select : List (String × Column)} {filter filter' : Option Predicate} {groupBy : List String}
      {having having' : Option Predicate} {orderBy : List (String × SortDir)}
      {limit limit' offset offset' : Option Bound}
      {left left' right right' inner inner' full full' : List (String × JoinQuery)} :
      Option.Rel (Predicate.Related R) filter filter' →
      Option.Rel (Predicate.Related R) having having' →
      Option.Rel (Bound.Related R) limit limit' → Option.Rel (Bound.Related R) offset offset' →
      List.Forall₂ (Keyed (JoinQuery.Related R)) left left' →
      List.Forall₂ (Keyed (JoinQuery.Related R)) right right' →
      List.Forall₂ (Keyed (JoinQuery.Related R)) inner inner' →
      List.Forall₂ (Keyed (JoinQuery.Related R)) full full' →
      QueryBody.Related R
        ⟨select, filter, groupBy, having, orderBy, limit, offset, left, right, inner, full⟩
        ⟨select, filter', groupBy, having', orderBy, limit', offset', left', right', inner', full'⟩

inductive SubQuery.Related (R : Json → Json → Prop) : SubQuery → SubQuery → Prop
  | mk {table : Option String} {body body' : QueryBody} : QueryBody.Related R body body' →
      SubQuery.Related R ⟨table, body⟩ ⟨table, body'⟩

end

/-- Queries with related bodies that nest related queries under the same names. -/
inductive SelectQuery.Related (R : Json → Json → Prop) : SelectQuery → SelectQuery → Prop
  | mk {body body' : QueryBody} {includes includes' : List (String × SelectQuery)} :
      QueryBody.Related R body body' →
      List.Forall₂ (Keyed (SelectQuery.Related R)) includes includes' →
      SelectQuery.Related R (.mk body includes) (.mk body' includes')

/-! ## Laying related conditions over each other -/

/-- What is related to a row of two parts is itself a row of two parts. -/
theorem exists_append_of_forall₂ {α β : Type} {R : α → β → Prop} {as bs : List α} {cs : List β}
    (h : List.Forall₂ R (as ++ bs) cs) :
    ∃ xs ys, cs = xs ++ ys ∧ List.Forall₂ R as xs ∧ List.Forall₂ R bs ys := by
  induction as generalizing cs with
  | nil => exact ⟨[], cs, rfl, .nil, h⟩
  | cons a as ih =>
    cases h with
    | cons ha h =>
      obtain ⟨xs, ys, rfl, hxs, hys⟩ := ih h
      exact ⟨_ :: xs, ys, rfl, .cons ha hxs, hys⟩

section

variable {κ ν : Type} [DecidableEq κ] {R : ν → ν → Prop}

/-- What becomes of entries after a write can come to be before it; a value that is overwritten is
left as it is. -/
theorem exists_insert (hrefl : ∀ v, R v v) {entries changed : Entries κ ν} {key : κ} {value : ν}
    (h : List.Forall₂ (Keyed R) (Entries.insert entries key value) changed) :
    ∃ entries' value', List.Forall₂ (Keyed R) entries entries' ∧ R value value' ∧
      Entries.insert entries' key value' = changed := by
  induction entries generalizing changed with
  | nil =>
    rcases h with _ | ⟨⟨hvalue⟩, ⟨⟩⟩
    exact ⟨[], _, .nil, hvalue, rfl⟩
  | cons entry rest ih =>
    obtain ⟨k, v⟩ := entry
    rw [Entries.insert] at h
    by_cases hk : k = key
    · rw [if_pos hk] at h
      rcases h with _ | ⟨⟨hvalue⟩, hrest⟩
      exact ⟨(k, v) :: _, _, .cons ⟨hrefl v⟩ hrest, hvalue, by rw [Entries.insert, if_pos hk]⟩
    · rw [if_neg hk] at h
      rcases h with _ | ⟨⟨hv⟩, hrest⟩
      obtain ⟨rest', value', hrest', hvalue, rfl⟩ := ih hrest
      exact ⟨(k, _) :: rest', value', .cons ⟨hv⟩ hrest', hvalue, by rw [Entries.insert, if_neg hk]⟩

/-- A change of merged entries comes from a change of both sides. What the overlay overwrites in the
base is kept as it is, for nothing shows it. -/
theorem exists_merge (hrefl : ∀ v, R v v) {base overlay changed : Entries κ ν}
    (h : List.Forall₂ (Keyed R) (Entries.merge base overlay) changed) :
    ∃ base' overlay', List.Forall₂ (Keyed R) base base' ∧ List.Forall₂ (Keyed R) overlay overlay' ∧
      Entries.merge base' overlay' = changed := by
  induction overlay generalizing base with
  | nil => exact ⟨changed, [], h, .nil, rfl⟩
  | cons entry rest ih =>
    obtain ⟨key, value⟩ := entry
    obtain ⟨written, rest', hwritten, hrest, hmerge⟩ := ih h
    obtain ⟨base', value', hbase, hvalue, rfl⟩ := exists_insert hrefl hwritten
    exact ⟨base', (key, value') :: rest', hbase, .cons ⟨hvalue⟩ hrest, hmerge⟩

end

section

variable {R : Json → Json → Prop}

/-- The same over any number of predicates, the last of which is laid over all the others. -/
theorem exists_foldl_merge {first changed : Predicate} {rest : List Predicate}
    (h : Predicate.Related R (rest.foldl Predicate.merge first) changed) :
    ∃ first' rest', Predicate.Related R first first' ∧
      List.Forall₂ (Predicate.Related R) rest rest' ∧
      rest'.foldl Predicate.merge first' = changed := by
  induction rest generalizing first with
  | nil => exact ⟨changed, [], h, .nil, rfl⟩
  | cons next rest ih =>
    obtain ⟨merged, rest', hmerged, hrest, hfold⟩ := ih h
    obtain ⟨base⟩ := first
    obtain ⟨overlay⟩ := next
    obtain ⟨hentries⟩ := hmerged
    obtain ⟨base', overlay', hbase, hoverlay, rfl⟩ := exists_merge Condition.Related.same hentries
    exact ⟨.ofEntries base', .ofEntries overlay' :: rest', .ofEntries hbase,
      .cons (.ofEntries hoverlay) hrest, hfold⟩

/-! ## The conditions of a body -/

/-- The predicates in the order in which they are laid over each other, as one. -/
def overlaidFilter : List Predicate → Option Predicate
  | [] => none
  | first :: rest => some (rest.foldl Predicate.merge first)

theorem QueryBody.mergedFilter_eq (body : QueryBody) :
    body.mergedFilter = overlaidFilter body.filters := rfl

theorem exists_toList {filter : Option Predicate} {changed : List Predicate}
    (h : List.Forall₂ (Predicate.Related R) filter.toList changed) :
    ∃ filter', Option.Rel (Predicate.Related R) filter filter' ∧ filter'.toList = changed := by
  cases filter with
  | none =>
    cases h
    exact ⟨none, .none, rfl⟩
  | some predicate =>
    rcases h with _ | ⟨hfirst, ⟨⟩⟩
    exact ⟨some _, .some hfirst, rfl⟩

/-- The predicates of joins. -/
def joinPredicates (joins : List (String × JoinQuery)) : List Predicate :=
  joins.filterMap fun (_, join) => join.filter

/-- A join without a condition adds nothing to the level, so its place is found by going through the
joins. -/
theorem exists_joins {joins : List (String × JoinQuery)} {changed : List Predicate}
    (h : List.Forall₂ (Predicate.Related R) (joinPredicates joins) changed) :
    ∃ joins', List.Forall₂ (Keyed (JoinQuery.Related R)) joins joins' ∧
      joinPredicates joins' = changed := by
  induction joins generalizing changed with
  | nil =>
    cases h
    exact ⟨[], .nil, rfl⟩
  | cons entry rest ih =>
    obtain ⟨name, select, filter⟩ := entry
    cases filter with
    | none =>
      obtain ⟨rest', hrest, rfl⟩ := ih h
      exact ⟨(name, ⟨select, none⟩) :: rest', .cons ⟨⟨.none⟩⟩ hrest, rfl⟩
    | some predicate =>
      rcases h with _ | ⟨hfirst, hothers⟩
      obtain ⟨rest', hrest, rfl⟩ := ih hothers
      exact ⟨(name, ⟨select, some _⟩) :: rest', .cons ⟨⟨.some hfirst⟩⟩ hrest, rfl⟩

/-- The predicates of a body are its own and those of its joins, by kind. -/
theorem QueryBody.filters_eq (body : QueryBody) :
    body.filters = body.filter.toList ++ (joinPredicates body.leftJoin ++
      (joinPredicates body.rightJoin ++ (joinPredicates body.innerJoin ++
        joinPredicates body.fullJoin))) := by
  simp only [filters, joins, joinPredicates, List.filterMap_append, List.filterMap_map,
    List.append_assoc]
  rfl

/-- A body with changed values, for whatever its conditions and bounds are changed into. -/
theorem QueryBody.exists_related {body : QueryBody} {filters : List Predicate}
    {having : Option Predicate} {limit offset : Option Bound}
    (hfilters : List.Forall₂ (Predicate.Related R) body.filters filters)
    (hhaving : Option.Rel (Predicate.Related R) body.having having)
    (hlimit : Option.Rel (Bound.Related R) body.limit limit)
    (hoffset : Option.Rel (Bound.Related R) body.offset offset) :
    ∃ body', QueryBody.Related R body body' ∧ body'.filters = filters ∧ body'.having = having ∧
      body'.limit = limit ∧ body'.offset = offset := by
  rw [filters_eq] at hfilters
  obtain ⟨own, joined, rfl, hown, hjoined⟩ := exists_append_of_forall₂ hfilters
  obtain ⟨lefts, joined, rfl, hlefts, hjoined⟩ := exists_append_of_forall₂ hjoined
  obtain ⟨rights, joined, rfl, hrights, hjoined⟩ := exists_append_of_forall₂ hjoined
  obtain ⟨inners, fulls, rfl, hinners, hfulls⟩ := exists_append_of_forall₂ hjoined
  obtain ⟨filter', hfilter, rfl⟩ := exists_toList hown
  obtain ⟨left', hleft, rfl⟩ := exists_joins hlefts
  obtain ⟨right', hright, rfl⟩ := exists_joins hrights
  obtain ⟨inner', hinner, rfl⟩ := exists_joins hinners
  obtain ⟨full', hfull, rfl⟩ := exists_joins hfulls
  refine ⟨⟨body.select, filter', body.groupBy, having, body.orderBy, limit, offset, left', right',
    inner', full'⟩, ?_, filters_eq _, rfl, rfl, rfl⟩
  cases body
  exact .mk hfilter hhaving hlimit hoffset hleft hright hinner hfull

/-! ## What stays -/

/-- A join without its conditions. -/
def joinFrame : JoinKind × String × JoinQuery → JoinKind × String × Columns
  | (kind, name, join) => (kind, name, join.select)

theorem map_joinFrame {joins joins' : List (String × JoinQuery)}
    (h : List.Forall₂ (Keyed (JoinQuery.Related R)) joins joins') (kind : JoinKind) :
    (joins'.map (kind, ·)).map joinFrame = (joins.map (kind, ·)).map joinFrame := by
  induction h with
  | nil => rfl
  | cons hfirst hrest ih =>
    obtain ⟨⟨-⟩⟩ := hfirst
    rw [List.map_cons, List.map_cons, List.map_cons, List.map_cons, ih]
    rfl

namespace QueryBody.Related

variable {body body' : QueryBody}

/-- The joins of related bodies differ in their conditions only. -/
theorem frames_eq (h : QueryBody.Related R body body') :
    body'.joins.map joinFrame = body.joins.map joinFrame := by
  obtain ⟨-, -, -, -, hleft, hright, hinner, hfull⟩ := h
  simp only [joins, List.map_append, map_joinFrame hleft, map_joinFrame hright,
    map_joinFrame hinner,
    map_joinFrame hfull]

theorem select_eq (h : QueryBody.Related R body body') : body'.select = body.select := by
  obtain ⟨-⟩ := h
  rfl

theorem groupBy_eq (h : QueryBody.Related R body body') : body'.groupBy = body.groupBy := by
  obtain ⟨-⟩ := h
  rfl

theorem orderBy_eq (h : QueryBody.Related R body body') : body'.orderBy = body.orderBy := by
  obtain ⟨-⟩ := h
  rfl

/-- What a body gives out has no values in it. -/
theorem outputColumns_eq (h : QueryBody.Related R body body') (select : Columns)
    (nested : List String) :
    body'.outputColumns select nested = body.outputColumns select nested := by
  have hcolumns : ∀ joins : List (JoinKind × String × JoinQuery),
      (joins.flatMap fun (_, _, join) => join.select) =
        (joins.map joinFrame).flatMap fun (_, _, select) => select := by
    intro joins
    rw [List.flatMap_map]
    rfl
  rw [outputColumns, outputColumns, hcolumns, hcolumns, h.frames_eq]

/-- The text of the joins is written without their conditions, so it is the same. -/
theorem joinsText_eq (h : QueryBody.Related R body body') (catalog : Catalog) :
    joinsText catalog body'.joins = joinsText catalog body.joins := by
  have htexts : ∀ joins : List (JoinKind × String × JoinQuery),
      (joins.mapM fun (kind, name, _) => do
          return Sql.relationJoin kind (← catalog.resolve name) : Except QueryError (List String)) =
        (joins.map joinFrame).mapM fun (kind, name, _) => do
          return Sql.relationJoin kind (← catalog.resolve name) := by
    intro joins
    induction joins with
    | nil => rfl
    | cons join rest ih =>
      rw [List.map_cons, List.mapM_cons, List.mapM_cons, ih]
      rfl
  rw [joinsText, joinsText, htexts, htexts, h.frames_eq]

end QueryBody.Related

/-- Related entries stand under the same keys. -/
theorem keys_eq_of_keyed {κ ν : Type} {S : ν → ν → Prop} {entries entries' : Entries κ ν}
    (h : List.Forall₂ (Keyed S) entries entries') :
    Entries.keys entries' = Entries.keys entries := by
  induction h with
  | nil => rfl
  | cons hfirst hrest ih =>
    obtain ⟨-⟩ := hfirst
    exact congrArg (List.cons _) ih

theorem SelectQuery.Related.outputColumns_eq {query query' : SelectQuery}
    (h : SelectQuery.Related R query query') : query'.outputColumns = query.outputColumns := by
  obtain ⟨hbody, hincludes⟩ := h
  dsimp only [outputColumns, body, includes]
  rw [hbody.outputColumns_eq, hbody.select_eq, keys_eq_of_keyed hincludes]

end

end DescriptorSql
