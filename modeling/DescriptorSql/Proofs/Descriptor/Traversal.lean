import DescriptorSql.Compile.Condition
import DescriptorSql.Statement.Params

/-!
# `Proofs/Descriptor/Traversal.lean` — going through a descriptor

Two ways to go through a whole descriptor, through its conditions, subqueries and joins at every
depth. A `Harvest` collects something at each place: a name, a value, a reference to a relation.
What it has to decide for itself is what becomes of a query's own conditions and those of its joins,
since the compiler lays the ones over the others: a harvest may take all of them, or only those that
are left. `mapValues` changes the values and nothing else.
-/

set_option autoImplicit false

namespace DescriptorSql

/-! ## Collecting -/

/-- What is collected at each place of a descriptor. -/
structure Harvest (α : Type) where
  /-- A name that is written: of a table, a column, an alias or a nested relation. -/
  name : String → List α
  value : Json → List α
  /-- The relation of a join. -/
  joined : String → List α
  /-- A subquery over a relation's rows. -/
  rows : SubQueryKind → String → QueryBody → List α
  /-- A relation that is nested into the rows. -/
  nested : String → SelectQuery → List α
  /-- The conditions of one query, its own first and then those of its joins. -/
  level : List (Entries String (List α)) → List α

namespace Harvest

variable {α : Type}

def all (entries : Entries String (List α)) : List α := entries.flatMap Prod.snd

/-- What the entries hold that are left when later predicates are laid over earlier ones. -/
def overlaid : List (Entries String (List α)) → List α
  | [] => []
  | first :: rest => all (rest.foldl Entries.merge first)

/-- The names of output columns and of what they come from. -/
def columns (h : Harvest α) (columns : Columns) : List α :=
  columns.flatMap fun (name, column) =>
    match column with
    | .reuse => h.name name
    | .source text => h.name text ++ h.name name

def bound (h : Harvest α) : Option Bound → List α
  | some (.placeholder text) => h.value (.string text)
  | _ => []

/-- Everything in a body but its conditions. -/
def clauses (h : Harvest α) (body : QueryBody) : List α :=
  h.columns body.select ++ body.groupBy.flatMap h.name ++
    (body.orderBy.flatMap fun (column, _) => h.name column) ++ h.bound body.limit ++
    h.bound body.offset ++
    body.joins.flatMap fun (_, name, join) => h.joined name ++ h.columns join.select

/-- Where a subquery reads from: its own table, or the relation it is named after. -/
def place (h : Harvest α) (kind : SubQueryKind) (name : String) (table? : Option String)
    (body : QueryBody) : List α :=
  match table? with
  | some table => h.name table
  | none => h.rows kind name body

mutual

def entries (h : Harvest α) : List (String × Condition) → Entries String (List α)
  | [] => []
  | (field, condition) :: rest => (field, h.condition field condition) :: h.entries rest

def condition (h : Harvest α) (field : String) : Condition → List α
  | .anyOf branches => h.branches branches
  | .allOf branches => h.branches branches
  | .negation (.ofEntries entries) => all (h.entries entries)
  | .existence entries => h.existence entries
  | .equals value => h.name field ++ h.value value
  | .comparisons entries => h.comparisons field entries

def branches (h : Harvest α) : List Predicate → List α
  | [] => []
  | .ofEntries entries :: rest => all (h.entries entries) ++ h.branches rest

def existence (h : Harvest α) : List (String × ExistsBody) → List α
  | [] => []
  | (name, .anyRow) :: rest => h.rows .existence name QueryBody.empty ++ h.existence rest
  | (name, .rowsOf ⟨table?, body⟩) :: rest =>
    h.place .existence name table? body ++ h.body body ++ h.existence rest

def comparisons (h : Harvest α) (field : String) : List (Operator × Operand) → List α
  | [] => []
  | (operator, operand) :: rest => h.operand field operator operand ++ h.comparisons field rest

def operand (h : Harvest α) (field : String) (operator : Operator) : Operand → List α
  | .value value => h.name field ++ h.value value
  | .list items => h.name field ++ h.value (.array items)
  | .subqueries queries => h.name field ++ h.subqueries operator.sql queries
  | .quantified groups => h.name field ++ h.quantified groups

def quantified (h : Harvest α) : List (Quantifier × List (String × SubQuery)) → List α
  | [] => []
  | (quantifier, queries) :: rest => h.subqueries quantifier.sql queries ++ h.quantified rest

def subqueries (h : Harvest α) (keyword : String) : List (String × SubQuery) → List α
  | [] => []
  | (name, ⟨table?, body⟩) :: rest =>
    h.place (.rows keyword) name table? body ++ h.body body ++ h.subqueries keyword rest

def body (h : Harvest α) : QueryBody → List α
  | ⟨select, filter, groupBy, having, orderBy, limit, offset, left, right, inner, full⟩ =>
    h.clauses
        ⟨select, filter, groupBy, having, orderBy, limit, offset, left, right, inner, full⟩ ++
      h.level (h.filter filter ++ h.joinFilters left ++ h.joinFilters right ++
        h.joinFilters inner ++ h.joinFilters full) ++
      h.level (h.filter having)

def filter (h : Harvest α) : Option Predicate → List (Entries String (List α))
  | none => []
  | some (.ofEntries entries) => [h.entries entries]

def joinFilters (h : Harvest α) : List (String × JoinQuery) → List (Entries String (List α))
  | [] => []
  | (_, ⟨_, filter⟩) :: rest => h.filter filter ++ h.joinFilters rest

end

mutual

def query (h : Harvest α) : SelectQuery → List α
  | .mk body includes => h.includes includes ++ h.body body

def includes (h : Harvest α) : List (String × SelectQuery) → List α
  | [] => []
  | (name, query) :: rest => h.nested name query ++ h.query query ++ h.includes rest

end

def predicate (h : Harvest α) (predicate : Predicate) : List α := all (h.entries predicate.entries)

@[simp] theorem all_nil : all ([] : Entries String (List α)) = [] := rfl

@[simp] theorem all_cons (key : String) (held : List α) (rest : Entries String (List α)) :
    all ((key, held) :: rest) = held ++ all rest := rfl

/-- What is true of everything in a body is true of its clauses and of each of its conditions. -/
theorem forall_mem_body {h : Harvest α}
    (hlevel : ∀ levels, h.level levels = levels.flatMap all) {p : α → Prop} {body : QueryBody}
    (hbody : ∀ item ∈ h.body body, p item) :
    (∀ item ∈ h.clauses body, p item) ∧
      (∀ item ∈ (h.filter body.filter).flatMap all, p item) ∧
      (∀ item ∈ (h.joinFilters body.leftJoin).flatMap all, p item) ∧
      (∀ item ∈ (h.joinFilters body.rightJoin).flatMap all, p item) ∧
      (∀ item ∈ (h.joinFilters body.innerJoin).flatMap all, p item) ∧
      (∀ item ∈ (h.joinFilters body.fullJoin).flatMap all, p item) ∧
      ∀ item ∈ (h.filter body.having).flatMap all, p item := by
  obtain ⟨select, filter, groupBy, having, orderBy, limit, offset, left, right, inner, full⟩ := body
  simp only [Harvest.body, hlevel, List.flatMap_append, List.forall_mem_append] at hbody
  obtain ⟨⟨hclauses, ⟨⟨⟨hfilter, hleft⟩, hright⟩, hinner⟩, hfull⟩, hhaving⟩ := hbody
  exact ⟨hclauses, hfilter, hleft, hright, hinner, hfull, hhaving⟩

end Harvest

/-! ## Everything that is written -/

/-- A text of a descriptor that goes into a statement. -/
inductive Written where
  | name (text : String)
  | value (content : Json)

/-- All names and values, also those in conditions that others are laid over. -/
def Harvest.written : Harvest Written where
  name text := [.name text]
  value content := [.value content]
  joined _ := []
  rows _ _ _ := []
  nested name _ := [.name name]
  level levels := levels.flatMap Harvest.all

/-- The names in a relation. -/
def Relation.written (relation : Relation) : List Written :=
  [.name relation.table, .name relation.field, .name relation.referenceTable,
      .name relation.referenceField] ++
    relation.tableAlias.toList.map .name ++
    relation.junction.toList.flatMap fun junction =>
      [.name junction.table, .name junction.field, .name junction.referenceField]

/-- The names in a catalog. The keys are only looked up, and never written. -/
def Catalog.written (catalog : Catalog) : List Written :=
  catalog.flatMap fun (_, relation) => relation.written

/-! ## Changing values

Keys, names, operators and the tables of subqueries stay as they are. -/

mutual

def Condition.mapEntries (f : Json → Json) :
    List (String × Condition) → List (String × Condition)
  | [] => []
  | (field, condition) :: rest => (field, condition.mapValues f) :: Condition.mapEntries f rest

def Condition.mapValues (f : Json → Json) : Condition → Condition
  | .anyOf branches => .anyOf (Predicate.mapBranches f branches)
  | .allOf branches => .allOf (Predicate.mapBranches f branches)
  | .negation (.ofEntries entries) => .negation (.ofEntries (Condition.mapEntries f entries))
  | .existence entries => .existence (ExistsBody.mapEntries f entries)
  | .equals value => .equals (f value)
  | .comparisons entries => .comparisons (Operand.mapEntries f entries)

def Predicate.mapBranches (f : Json → Json) : List Predicate → List Predicate
  | [] => []
  | .ofEntries entries :: rest =>
    .ofEntries (Condition.mapEntries f entries) :: Predicate.mapBranches f rest

def ExistsBody.mapEntries (f : Json → Json) :
    List (String × ExistsBody) → List (String × ExistsBody)
  | [] => []
  | (name, .anyRow) :: rest => (name, .anyRow) :: ExistsBody.mapEntries f rest
  | (name, .rowsOf ⟨table?, body⟩) :: rest =>
    (name, .rowsOf ⟨table?, body.mapValues f⟩) :: ExistsBody.mapEntries f rest

def Operand.mapEntries (f : Json → Json) : List (Operator × Operand) → List (Operator × Operand)
  | [] => []
  | (operator, operand) :: rest => (operator, operand.mapValues f) :: Operand.mapEntries f rest

def Operand.mapValues (f : Json → Json) : Operand → Operand
  | .value value => .value (f value)
  | .list items => .list (items.map f)
  | .subqueries queries => .subqueries (SubQuery.mapEntries f queries)
  | .quantified groups => .quantified (SubQuery.mapGroups f groups)

def SubQuery.mapGroups (f : Json → Json) :
    List (Quantifier × List (String × SubQuery)) → List (Quantifier × List (String × SubQuery))
  | [] => []
  | (quantifier, queries) :: rest =>
    (quantifier, SubQuery.mapEntries f queries) :: SubQuery.mapGroups f rest

def SubQuery.mapEntries (f : Json → Json) :
    List (String × SubQuery) → List (String × SubQuery)
  | [] => []
  | (name, ⟨table?, body⟩) :: rest =>
    (name, ⟨table?, body.mapValues f⟩) :: SubQuery.mapEntries f rest

def QueryBody.mapValues (f : Json → Json) : QueryBody → QueryBody
  | ⟨select, filter, groupBy, having, orderBy, limit, offset, left, right, inner, full⟩ =>
    ⟨select, Predicate.mapFilter f filter, groupBy, Predicate.mapFilter f having, orderBy, limit,
      offset, JoinQuery.mapEntries f left, JoinQuery.mapEntries f right,
      JoinQuery.mapEntries f inner, JoinQuery.mapEntries f full⟩

def Predicate.mapFilter (f : Json → Json) : Option Predicate → Option Predicate
  | none => none
  | some (.ofEntries entries) => some (.ofEntries (Condition.mapEntries f entries))

def JoinQuery.mapEntries (f : Json → Json) :
    List (String × JoinQuery) → List (String × JoinQuery)
  | [] => []
  | (name, ⟨select, filter⟩) :: rest =>
    (name, ⟨select, Predicate.mapFilter f filter⟩) :: JoinQuery.mapEntries f rest

end

def Predicate.mapValues (f : Json → Json) (predicate : Predicate) : Predicate :=
  .ofEntries (Condition.mapEntries f predicate.entries)

mutual

def SelectQuery.mapValues (f : Json → Json) : SelectQuery → SelectQuery
  | .mk body includes => .mk (body.mapValues f) (SelectQuery.mapEntries f includes)

def SelectQuery.mapEntries (f : Json → Json) :
    List (String × SelectQuery) → List (String × SelectQuery)
  | [] => []
  | (name, query) :: rest => (name, query.mapValues f) :: SelectQuery.mapEntries f rest

end

end DescriptorSql
