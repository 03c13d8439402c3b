import DescriptorSql.Compile.Overlay
import DescriptorSql.Compile.Select

/-!
# `Proofs/Compile/Fuel.lean` — the compiler with its calls counted

A query is compiled by way of the queries nested into it and of its conditions, and those by way of
groups and subqueries, for which a fresh query is made. The conditions of a query are merged with
those of its joins before they are compiled, and relations are looked up in a catalog that may lead
back to where it came from. None of these is a part of what it is made for, so here every call
costs: each function has some fuel and passes one less to the functions that it calls, and without
any it has no answer.
-/

set_option autoImplicit false

namespace DescriptorSql

/-! ## Computing on fuel -/

/-- An answer, or an error, unless the fuel has run out. -/
abbrev Fueled (α : Type) := ExceptT QueryError Option α

namespace Fueled

def runsOut {α : Type} : Fueled α := ExceptT.mk none

def done {α : Type} (answer : Except QueryError α) : Fueled α := ExceptT.mk (some answer)

end Fueled

/-- What a query is expanded to before its conditions are compiled. -/
structure Level where
  joins : String
  filter : Option Predicate

/-- The query that stands for a subquery, with the columns that its place gives it. -/
def SubQuery.selecting (query : SubQuery) (kind : SubQueryKind) : SelectQuery :=
  match query.toSelectQuery with
  | .mk body includes => .mk { body with select := kind.select body.select } includes

namespace Fueled

variable (catalog : Catalog)

mutual

/-- A statement over a table. -/
def buildSelect : Nat → String → Option String → SelectQuery → Sql.Append → Fueled String
  | 0, _, _, _, _ => .runsOut
  | fuel + 1, table, alias?, query, append =>
    selectFrom fuel (Sql.tableRef table alias?) query append

def selectFrom : Nat → String → SelectQuery → Sql.Append → Fueled String
  | 0, _, _, _ => .runsOut
  | fuel + 1, source, query, append => do
    let level ← expand fuel query
    let expansion ← clauses fuel level query
    return selectStatement query.outputColumns.selectList source query.body expansion append

/-- The lateral subquery of a relation that is nested into the rows. -/
def buildNested : Nat → String → Relation → SelectQuery → Fueled String
  | 0, _, _, _ => .runsOut
  | fuel + 1, key, relation, query => do
    let level ← expand fuel query
    let expansion ← clauses fuel level query
    return nestedStatement key relation query expansion

/-- The joins and the merged condition. Relations are looked up here and where a subquery is
placed. -/
def expand : Nat → SelectQuery → Fueled Level
  | 0, _ => .runsOut
  | fuel + 1, query => do
    let laterals ← query.includes.mapM fun (name, nested) => do
      let relation ← done (catalog.resolve name)
      Sql.lateralJoin <$> buildNested fuel name relation nested
    let joins ← done (joinsText catalog query.body.joins)
    return ⟨String.join laterals ++ joins, query.body.mergedFilter⟩

/-- The condition on rows is that of the level, the one on groups that of the query. -/
def clauses : Nat → Level → SelectQuery → Fueled Expansion
  | 0, _, _ => .runsOut
  | fuel + 1, level, query => do
    let filter ← level.filter.mapM (predicate fuel .and)
    let having ← query.body.having.mapM (predicate fuel .and)
    return ⟨level.joins, filter, having⟩

def predicate : Nat → Connective → Predicate → Fueled String
  | 0, _, _ => .runsOut
  | fuel + 1, connective, conditions => do
    let texts ← conditions.entries.mapM fun (field, condition) =>
      match condition with
      | .anyOf branches => group fuel .or branches
      | .allOf branches => group fuel .and branches
      | .negation inner => negationClauses <$> predicate fuel .and inner
      | .existence entries => existenceClauses <$> entries.mapM fun (name, body) =>
          subQuery fuel .existence name body.toSubQuery
      | .equals value => return [Sql.identifier field ++ " = " ++ Sql.literal value]
      | .comparisons entries => List.flatten <$> entries.mapM fun (operator, operand) =>
          comparison fuel field operator operand
    return connective.join texts.flatten

def group : Nat → Connective → List Predicate → Fueled (List String)
  | 0, _, _ => .runsOut
  | fuel + 1, connective, branches =>
    groupClauses connective <$> branches.mapM (predicate fuel connective)

def comparison : Nat → String → Operator → Operand → Fueled (List String)
  | 0, _, _, _ => .runsOut
  | fuel + 1, field, operator, operand =>
    if operator.isMembership then
      match operand with
      | .list items => return [comparisonText field operator (Sql.literalList items)]
      | .value (.array items) => return [comparisonText field operator (Sql.literalList items)]
      | .subqueries queries =>
        List.map (Sql.identifier field ++ " " ++ ·) <$> queries.mapM fun entry =>
          subQuery fuel (.rows operator.sql) entry.1 entry.2
      | _ => .done (.error (.malformedOperator operator.name .listOrSubqueries))
    else if operator.isRange then .done (rangeClauses field operator operand)
    else
      match operand with
      | .value value => return [comparisonText field operator (Sql.literal value)]
      | .list items => return [comparisonText field operator (Sql.literalList items)]
      | .quantified groups =>
        (List.map (comparisonText field operator) ∘ List.flatten) <$>
          groups.mapM fun group => group.2.mapM fun entry =>
            subQuery fuel (.rows group.1.sql) entry.1 entry.2
      | .subqueries _ => .done (.error (.malformedOperator operator.name .valueOrQuantified))

/-- A subquery is compiled as a query of its own. -/
def subQuery : Nat → SubQueryKind → String → SubQuery → Fueled String
  | 0, _, _, _ => .runsOut
  | fuel + 1, kind, name, query =>
    match query.table with
    | some table => do
      let sql ← buildSelect fuel table none (query.selecting kind) {}
      return kind.keyword ++ "(" ++ sql ++ ")"
    | none => do
      let relation ← done (catalog.resolve name)
      let append := Sql.Append.condition (Sql.correlation relation)
      match Sql.junctionSource? relation with
      | some source =>
        let sql ← selectFrom fuel source (query.selecting kind) append
        return kind.keyword ++ "(" ++ sql ++ " )"
      | none =>
        let sql ← buildSelect fuel relation.table relation.tableAlias (query.selecting kind) append
        return kind.keyword ++ "(" ++ sql ++ ")"

end

end Fueled

/-! ## Answers on fuel -/

namespace Fueled

variable {α β : Type}

theorem done_bind {x : Except QueryError α} {f : α → Fueled β} {g : α → Except QueryError β}
    (h : ∀ a, x = .ok a → f a = done (g a)) : done x >>= f = done (x >>= g) := by
  cases x with
  | error error => rfl
  | ok a => exact h a rfl

theorem map_done (f : α → β) (x : Except QueryError α) : f <$> done x = done (f <$> x) := by
  cases x <;> rfl

/-- If every item is answered, so is the list. -/
theorem mapM_done {f : α → Fueled β} {g : α → Except QueryError β} {items : List α}
    (h : ∀ item ∈ items, f item = done (g item)) : items.mapM f = done (items.mapM g) := by
  induction items with
  | nil => rfl
  | cons item rest ih =>
    obtain ⟨hitem, hrest⟩ := List.forall_mem_cons.mp h
    rw [List.mapM_cons, List.mapM_cons, hitem, ih hrest]
    exact done_bind fun b _ => done_bind fun bs _ => rfl

theorem option_mapM_done {f : α → Fueled β} {g : α → Except QueryError β} {item? : Option α}
    (h : ∀ item, item? = some item → f item = done (g item)) :
    item?.mapM f = done (item?.mapM g) := by
  cases item? with
  | none => rfl
  | some item =>
    rw [Option.mapM_some, Option.mapM_some, h item rfl, map_done]

end Fueled

end DescriptorSql
