import DescriptorSql.Sql.Token

/-!
# `Sql/Insert.lean` — INSERT statements

Columns, rows of values, what to do about a conflict, and the columns to return. An INSERT without
columns or rows is written without those parts.
-/

set_option autoImplicit false

namespace DescriptorSql.Sql

/-- What makes two rows conflict. -/
inductive ConflictTarget where
  | columns (names : List String)
  | constraint (name : String)

/-- What happens to a row that conflicts. -/
inductive ConflictAction where
  | doNothing
  | doUpdate (assigned : List (String × Json)) (filter : Option String)

/-- The ON CONFLICT clause. -/
structure OnConflict where
  target : ConflictTarget
  action : ConflictAction := .doNothing

namespace OnConflict

def targetTokens : ConflictTarget → List Token
  | .columns names => parenthesized (nameList names)
  | .constraint name =>
    [.keyword .on, .space, .keyword .constraint, .space, .ident name]

def actionTokens : ConflictAction → List Token
  | .doNothing => [.keyword .nothing]
  | .doUpdate assigned filter =>
    [.keyword .update, .space, .keyword .set, .space] ++ assignments assigned ++
      (match filter.filter (!·.isEmpty) with
        | some sql => spaced [.keyword .«where», .fragment sql]
        | none => [])

def tokens (conflict : OnConflict) : List Token :=
  [.keyword .on, .space, .keyword .conflict, .space] ++ targetTokens conflict.target ++
    [.space, .keyword .«do», .space] ++ actionTokens conflict.action

end OnConflict

structure Insert where
  table : String
  columns : List String := []
  rows : List (List Json) := []
  onConflict : Option OnConflict := none
  returning : List String := []

namespace Insert

/-- The rows, each in parentheses with a space in front, commas between them. -/
def rowTokens (rows : List (List Json)) : List Token :=
  [Token.comma].intercalate (rows.map fun row => .space :: parenthesized (valueList row))

def tokens (insert : Insert) : List Token :=
  [.keyword .insert, .space, .keyword .into, .space, .ident insert.table] ++
    (if insert.columns.isEmpty then []
      else .space :: parenthesized (nameList insert.columns)) ++
    (if insert.rows.isEmpty then []
      else spaced [.keyword .values] ++ rowTokens insert.rows) ++
    (match insert.onConflict with
      | some conflict => .space :: conflict.tokens
      | none => []) ++
    namesClause .returning insert.returning

def toSql (insert : Insert) : String := serialize insert.tokens

end Insert

end DescriptorSql.Sql
