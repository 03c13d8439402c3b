import DescriptorSql.Compile.Columns
import DescriptorSql.Sql.Clauses
import DescriptorSql.Sql.Link

/-!
# `Compile/Condition.lean` — predicates as SQL conditions

Each entry of a predicate becomes a list of clauses, and the clauses of all entries are joined by
the connective of the place where the predicate stands. What says nothing leaves nothing behind: a
group without branches, or whose branches are all empty, contributes no clause.

Entries are compiled one by one (`entryClauses`), and only then put in sequence (`gather`), so that
the first entry in order decides the error. This is what lets a query overlay the conditions of its
joins onto its own: overlaying compiled entries and compiling overlaid entries are the same thing,
and the recursion stays on the descriptor. The catalog is only looked things up in, and never
recursed on.
-/

set_option autoImplicit false

namespace DescriptorSql

/-- What an entry compiles to. -/
abbrev Clausal := Except QueryError (List String)

/-- The parts of a query's statement that depend on the catalog. -/
structure Expansion where
  joins : String
  filter : Option String
  having : Option String

def Expansion.empty : Expansion := ⟨"", none, none⟩

/-! ## Putting clauses together -/

/-- The clauses of entries in sequence; the first error wins. -/
def gather : Entries String Clausal → Clausal
  | [] => .ok []
  | (_, clauses) :: rest => do
    let own ← clauses
    let others ← gather rest
    return own ++ others

/-- Clauses joined by a connective. -/
def Connective.join (connective : Connective) (clauses : List String) : String :=
  connective.separator.intercalate clauses

/-- The texts of a group's branches as one clause in parentheses; empty branches are left out, and a
group of nothing is no clause. -/
def groupClauses (connective : Connective) (branches : List String) : List String :=
  let shown := branches.filter (!·.isEmpty)
  if shown.isEmpty then [] else ["(" ++ connective.join shown ++ ")"]

/-- A negated text as a clause; the negation of nothing is no clause. -/
def negationClauses (text : String) : List String :=
  if text.isEmpty then [] else ["NOT(" ++ text ++ ")"]

/-- Existence tests as one clause; they hold together whatever stands around them. -/
def existenceClauses (tests : List String) : List String :=
  if tests.isEmpty then [] else [Connective.and.join tests]

/-- Overlays compiled predicates in order and joins their clauses by AND; without a predicate there
is no condition. -/
def overlayText : List (Entries String Clausal) → Except QueryError (Option String)
  | [] => .ok none
  | first :: rest => (some ∘ Connective.and.join) <$> gather (rest.foldl Entries.merge first)

/-! ## Comparisons -/

/-- The values of an operand that lists values. -/
def Operand.values? : Operand → Option (List Json)
  | .list items => some items
  | .value (.array items) => some items
  | _ => none

/-- `column operator right`. -/
def comparisonText (field : String) (operator : Operator) (right : String) : String :=
  Sql.identifier field ++ " " ++ operator.sql ++ " " ++ right

def rangeClauses (field : String) (operator : Operator) (operand : Operand) : Clausal :=
  match operand.values? with
  | some [low, high] =>
    .ok [comparisonText field operator (Sql.literal low ++ " AND " ++ Sql.literal high)]
  | _ => .error (.malformedOperator operator.name .pair)

/-! ## Statements -/

def selectStatement (columns source : String) (body : QueryBody) (expansion : Expansion)
    (append : Sql.Append) : String :=
  let clauses : Sql.Clauses :=
    { head := "SELECT " ++ columns ++ " FROM " ++ source
      joins := expansion.joins
      filter := expansion.filter
      groupBy := body.groupBy
      having := expansion.having
      orderBy := body.orderBy
      limit := body.limit
      offset := body.offset }
  clauses.toSql append

def joinsText (catalog : Catalog) (joins : List (JoinKind × String × JoinQuery)) :
    Except QueryError String := do
  let texts ← joins.mapM fun (kind, name, _) => do
    return Sql.relationJoin kind (← catalog.resolve name)
  return String.join texts

/-- Where a subquery reads from, what ties it to the row around it, and how its parenthesis ends. -/
structure SubQueryPlace where
  source : String
  append : Sql.Append
  closing : String

/-- The place of a subquery: its own table, or else the relation it is named after. -/
def subQueryPlace (catalog : Catalog) (name : String) (table? : Option String) :
    Except QueryError SubQueryPlace :=
  match table? with
  | some table => .ok ⟨Sql.tableRef table none, {}, ")"⟩
  | none => do
    let relation ← catalog.resolve name
    let closing := if relation.junction.isSome then " )" else ")"
    return ⟨Sql.relationSource relation, .condition (Sql.correlation relation), closing⟩

/-- What a subquery stands for. -/
inductive SubQueryKind where
  /-- An existence test, whose own columns do not matter. -/
  | existence
  /-- The right-hand side of an operator. -/
  | rows (keyword : String)

/-- The keyword in front of the parenthesis. -/
def SubQueryKind.keyword : SubQueryKind → String
  | existence => "EXISTS"
  | rows keyword => keyword

/-- The select list that the subquery's own columns are replaced by, if they are. -/
def SubQueryKind.select (own : Columns) : SubQueryKind → Columns
  | existence => [("1", .reuse)]
  | rows _ => own

/-- A subquery with its keyword, `KIND(SELECT …)`. -/
def subQueryText (kind : SubQueryKind) (place : SubQueryPlace) (body : QueryBody)
    (expansion : Expansion) : String :=
  let columns := body.outputColumns (kind.select body.select) []
  kind.keyword ++ "(" ++
    selectStatement columns.selectList place.source body expansion place.append ++ place.closing

/-! ## The compiler -/

mutual

def entryClauses (catalog : Catalog) : List (String × Condition) → Entries String Clausal
  | [] => []
  | (field, condition) :: rest =>
    (field, conditionClauses catalog field condition) :: entryClauses catalog rest

def conditionClauses (catalog : Catalog) (field : String) : Condition → Clausal
  | .anyOf branches => groupClauses .or <$> branchTexts catalog .or branches
  | .allOf branches => groupClauses .and <$> branchTexts catalog .and branches
  | .negation (.ofEntries entries) =>
    (negationClauses ∘ Connective.and.join) <$> gather (entryClauses catalog entries)
  | .existence entries => existenceClauses <$> existenceTexts catalog entries
  | .equals value => .ok [Sql.identifier field ++ " = " ++ Sql.literal value]
  | .comparisons entries => comparisonsClauses catalog field entries

/-- The text of each branch, its entries joined by the connective of the group. -/
def branchTexts (catalog : Catalog) (connective : Connective) : List Predicate → Clausal
  | [] => .ok []
  | .ofEntries entries :: rest => do
    let clauses ← gather (entryClauses catalog entries)
    let others ← branchTexts catalog connective rest
    return connective.join clauses :: others

/-- The existence test of each relation. -/
def existenceTexts (catalog : Catalog) : List (String × ExistsBody) → Clausal
  | [] => .ok []
  | (name, .anyRow) :: rest => do
    let place ← subQueryPlace catalog name none
    let others ← existenceTexts catalog rest
    return subQueryText .existence place QueryBody.empty Expansion.empty :: others
  | (name, .rowsOf ⟨table?, body⟩) :: rest => do
    let place ← subQueryPlace catalog name table?
    let expansion ← expandBody catalog body
    let others ← existenceTexts catalog rest
    return subQueryText .existence place body expansion :: others

def comparisonsClauses (catalog : Catalog) (field : String) : List (Operator × Operand) → Clausal
  | [] => .ok []
  | (operator, operand) :: rest => do
    let own ← operandClauses catalog field operator operand
    let others ← comparisonsClauses catalog field rest
    return own ++ others

def operandClauses (catalog : Catalog) (field : String) (operator : Operator)
    (operand : Operand) : Clausal :=
  if operator.isMembership then
    match operand with
    | .list items => .ok [comparisonText field operator (Sql.literalList items)]
    | .value (.array items) => .ok [comparisonText field operator (Sql.literalList items)]
    | .subqueries queries =>
      List.map (Sql.identifier field ++ " " ++ ·) <$> rowsTexts catalog operator.sql queries
    | _ => .error (.malformedOperator operator.name .listOrSubqueries)
  else if operator.isRange then rangeClauses field operator operand
  else
    match operand with
    | .value value => .ok [comparisonText field operator (Sql.literal value)]
    | .list items => .ok [comparisonText field operator (Sql.literalList items)]
    | .quantified groups =>
      List.map (comparisonText field operator) <$> quantifiedTexts catalog groups
    | .subqueries _ => .error (.malformedOperator operator.name .valueOrQuantified)

def quantifiedTexts (catalog : Catalog) :
    List (Quantifier × List (String × SubQuery)) → Clausal
  | [] => .ok []
  | (quantifier, queries) :: rest => do
    let own ← rowsTexts catalog quantifier.sql queries
    let others ← quantifiedTexts catalog rest
    return own ++ others

def rowsTexts (catalog : Catalog) (keyword : String) : List (String × SubQuery) → Clausal
  | [] => .ok []
  | (name, ⟨table?, body⟩) :: rest => do
    let place ← subQueryPlace catalog name table?
    let expansion ← expandBody catalog body
    let others ← rowsTexts catalog keyword rest
    return subQueryText (.rows keyword) place body expansion :: others

/-- The joins and conditions of a query. The conditions of the joins are overlaid onto the query's
own, in the order of the joins. -/
def expandBody (catalog : Catalog) : QueryBody → Except QueryError Expansion
  | ⟨select, filter, groupBy, having, orderBy, limit, offset, left, right, inner, full⟩ => do
    let body : QueryBody :=
      ⟨select, filter, groupBy, having, orderBy, limit, offset, left, right, inner, full⟩
    let joins ← joinsText catalog body.joins
    let filter ← overlayText
      (filterClauses catalog filter ++ joinFilters catalog left ++ joinFilters catalog right ++
        joinFilters catalog inner ++ joinFilters catalog full)
    let having ← overlayText (filterClauses catalog having)
    return ⟨joins, filter, having⟩

/-- The entries of a predicate, compiled; nothing for no predicate. -/
def filterClauses (catalog : Catalog) : Option Predicate → List (Entries String Clausal)
  | none => []
  | some (.ofEntries entries) => [entryClauses catalog entries]

def joinFilters (catalog : Catalog) :
    List (String × JoinQuery) → List (Entries String Clausal)
  | [] => []
  | (_, ⟨_, filter⟩) :: rest => filterClauses catalog filter ++ joinFilters catalog rest

end

def Predicate.toSql (catalog : Catalog) (connective : Connective) (predicate : Predicate) :
    Except QueryError String :=
  connective.join <$> gather (entryClauses catalog predicate.entries)

end DescriptorSql
