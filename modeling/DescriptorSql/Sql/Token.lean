import DescriptorSql.Sql.Literal

/-!
# `Sql/Token.lean` — statements as token sequences

A statement is put together from tokens and becomes text at the end. Keywords and marks are a closed
vocabulary; names and values are quoted when they become text, and a fragment is text that another
part has finished. Spaces are tokens as well, so the text of a sequence is the texts of its tokens,
one after the other (`serialize_append`).
-/

set_option autoImplicit false

namespace DescriptorSql.Sql

inductive Keyword where
  | select
  | «from»
  | «where»
  | and
  | or
  | not
  | on
  | join
  | inner
  | left
  | right
  | full
  | lateral
  | groupBy
  | having
  | orderBy
  | asc
  | desc
  | limit
  | offset
  | truth
  | insert
  | into
  | values
  | update
  | set
  | delete
  | returning
  | conflict
  | constraint
  | «do»
  | nothing
  deriving DecidableEq, Repr

def Keyword.text : Keyword → String
  | select => "SELECT"
  | «from» => "FROM"
  | «where» => "WHERE"
  | and => "AND"
  | or => "OR"
  | not => "NOT"
  | on => "ON"
  | join => "JOIN"
  | inner => "INNER"
  | left => "LEFT"
  | right => "RIGHT"
  | full => "FULL"
  | lateral => "LATERAL"
  | groupBy => "GROUP BY"
  | having => "HAVING"
  | orderBy => "ORDER BY"
  | asc => "ASC"
  | desc => "DESC"
  | limit => "LIMIT"
  | offset => "OFFSET"
  | truth => "TRUE"
  | insert => "INSERT"
  | into => "INTO"
  | values => "VALUES"
  | update => "UPDATE"
  | set => "SET"
  | delete => "DELETE"
  | returning => "RETURNING"
  | conflict => "CONFLICT"
  | constraint => "CONSTRAINT"
  | «do» => "DO"
  | nothing => "NOTHING"

inductive Token where
  | keyword (word : Keyword)
  | comma
  | lparen
  | rparen
  | eq
  | space
  /-- A name, quoted when it becomes text. -/
  | ident (name : String)
  /-- A value, formatted when it becomes text. -/
  | value (content : Json)
  /-- Finished text. -/
  | fragment (sql : String)

def Token.text : Token → String
  | .keyword word => word.text
  | .comma => ","
  | .lparen => "("
  | .rparen => ")"
  | .eq => "="
  | .space => " "
  | .ident name => identifier name
  | .value content => literal content
  | .fragment sql => sql

def serialize (tokens : List Token) : String := String.join (tokens.map Token.text)

theorem toList_serialize (tokens : List Token) :
    (serialize tokens).toList = tokens.flatMap fun token => token.text.toList := by
  rw [serialize, String.toList_join, List.flatMap_map]

@[simp] theorem serialize_append (first second : List Token) :
    serialize (first ++ second) = serialize first ++ serialize second := by
  rw [← String.toList_inj, String.toList_append]
  simp [toList_serialize]

@[simp] theorem serialize_cons (token : Token) (rest : List Token) :
    serialize (token :: rest) = token.text ++ serialize rest := by
  rw [← String.toList_inj, String.toList_append]
  simp [toList_serialize]

@[simp] theorem serialize_nil : serialize [] = "" := rfl

/-! ## Phrases -/

/-- Every token with a space in front of it. -/
def spaced (tokens : List Token) : List Token := tokens.flatMap fun token => [.space, token]

/-- Items with a comma and a space between them. -/
def commaSeparated (items : List (List Token)) : List Token :=
  [Token.comma, .space].intercalate items

/-- Names with a comma and a space between them. -/
def nameList (names : List String) : List Token :=
  commaSeparated (names.map fun name => [.ident name])

def valueList (values : List Json) : List Token :=
  commaSeparated (values.map fun value => [.value value])

def parenthesized (tokens : List Token) : List Token := [.lparen] ++ tokens ++ [.rparen]

/-- `column = value` for every pair. -/
def assignments (pairs : List (String × Json)) : List Token :=
  commaSeparated (pairs.map fun (column, value) =>
    [.ident column, .space, .eq, .space, .value value])

/-- A keyword and a list of names after it, each with a space in front; nothing for no names. -/
def namesClause (keyword : Keyword) (names : List String) : List Token :=
  if names.isEmpty then [] else spaced [.keyword keyword] ++ .space :: nameList names

end DescriptorSql.Sql
