import DescriptorSql.Sql.Token
import DescriptorSql.Descriptor.Query
import DescriptorSql.Text.Blank

/-!
# `Sql/Clauses.lean` — the clauses of a statement in order

A statement is a head and clauses after it, in one fixed order: joins, WHERE, GROUP BY, HAVING,
ORDER BY, LIMIT, OFFSET, RETURNING. An absent clause and an empty one leave no trace. Whoever builds
a statement inside another one may append a join and a condition; the condition comes last in the
WHERE clause, joined by AND.
-/

set_option autoImplicit false

namespace DescriptorSql.Sql

/-- What is appended to the clauses from outside: a join after the others, and a condition after the
statement's own. -/
structure Append where
  join : Option String := none
  filter : Option String := none
  deriving DecidableEq, Repr

def Append.condition (sql : String) : Append := { filter := some sql }

/-- The finished parts of a statement. -/
structure Clauses where
  head : String
  joins : String := ""
  filter : Option String := none
  groupBy : List String := []
  having : Option String := none
  orderBy : List (String × SortDir) := []
  limit : Option Bound := none
  offset : Option Bound := none
  returning : List String := []
  deriving DecidableEq, Repr

/-- The text, unless it is empty. -/
def present (sql? : Option String) : Option String := sql?.filter (!·.isEmpty)

/-- Two conditions as one: both joined by AND, or the one that is not empty. -/
def andFilter (existing? : Option String) (sql : String) : String :=
  match present existing? with
  | some existing => if sql.isEmpty then existing else existing ++ " AND " ++ sql
  | none => sql

def directionKeyword : SortDir → Keyword
  | .asc => .asc
  | .desc => .desc

def boundToken : Bound → Token
  | .count n => .value (Json.ofNat n)
  | .placeholder text => .value (.string text)

namespace Clauses

/-- The WHERE clause: the statement's condition and the appended one. -/
def filterTokens (clauses : Clauses) (append : Append) : List Token :=
  match present clauses.filter, present append.filter with
  | some own, some extra =>
    spaced [.keyword .«where», .fragment own, .keyword .and, .fragment extra]
  | some only, none | none, some only => spaced [.keyword .«where», .fragment only]
  | none, none => []

def havingTokens (clauses : Clauses) : List Token :=
  match present clauses.having with
  | some sql => spaced [.keyword .having, .fragment sql]
  | none => []

def orderTokens (clauses : Clauses) : List Token :=
  if clauses.orderBy.isEmpty then []
  else
    spaced [.keyword .orderBy] ++ .space ::
      commaSeparated (clauses.orderBy.map fun (column, direction) =>
        [.ident column, .space, .keyword (directionKeyword direction)])

/-- A LIMIT or OFFSET clause. -/
def boundTokens (keyword : Keyword) (bound? : Option Bound) : List Token :=
  match bound? with
  | some bound => spaced [.keyword keyword, boundToken bound]
  | none => []

def tokens (clauses : Clauses) (append : Append) : List Token :=
  [.fragment clauses.head, .fragment clauses.joins] ++
    (present append.join).toList.map Token.fragment ++
    clauses.filterTokens append ++
    namesClause .groupBy clauses.groupBy ++
    clauses.havingTokens ++
    clauses.orderTokens ++
    boundTokens .limit clauses.limit ++
    boundTokens .offset clauses.offset ++
    namesClause .returning clauses.returning

/-- The statement's text, without blanks at its ends. -/
def toSql (clauses : Clauses) (append : Append) : String :=
  Text.trim (serialize (clauses.tokens append))

end Clauses

end DescriptorSql.Sql
