import DescriptorSql.Sql.Identifier
import DescriptorSql.Json.Printer

/-!
# `Sql/Literal.lean` — values in a statement

Text becomes a single-quoted literal in which backslashes and quotes are written twice; raw SQL,
placeholders and the null keywords are written as they are. An array is a parenthesised list, and an
object is its JSON text as a literal. A JSON value can also stand where names are expected
(`identifierOfJson`).
-/

set_option autoImplicit false

namespace DescriptorSql.Sql

/-- Doubles have a point from four zeros after it to sixteen digits before it; elsewhere an exponent
without a plus sign. -/
def doubleLayout : DecimalLayout := ⟨-4, 16, false⟩

def numberText : JsonNumber → String
  | .int n => toString n
  | .double x => doubleLayout.text x

def boolText : Bool → String
  | true => "true"
  | false => "false"

/-- The characters of a literal: backslashes and single quotes twice. -/
def escapeChars (cs : List Char) : List Char := Text.double '\'' (Text.double '\\' cs)

/-- Text with its backslashes and single quotes written twice. -/
def escapeText (s : String) : String := String.ofList (escapeChars s.toList)

/-- Text as a single-quoted literal, whatever it holds. -/
def quoteText (s : String) : String := "'" ++ escapeText s ++ "'"

/-- The text is a placeholder or a null keyword, and no data. -/
def isVerbatimText (cs : List Char) : Bool := isPlaceholder cs || isNullKeyword cs

/-- Text as a value. -/
def textLiteral (s : String) : String :=
  match stripRaw? s with
  | some sql => sql
  | none => if isVerbatimText s.toList then s else quoteText s

mutual

/-- A value as it stands in a statement. -/
def literal : Json → String
  | .null => "NULL"
  | .bool b => boolText b
  | .number n => numberText n
  | .string s => textLiteral s
  | .array items => "(" ++ ", ".intercalate (literals items) ++ ")"
  | .object members => quoteText (Json.object members).compact

def literals : List Json → List String
  | [] => []
  | item :: rest => literal item :: literals rest

end

/-- Several values as a parenthesised list. -/
def literalList (items : List Json) : String := "(" ++ ", ".intercalate (literals items) ++ ")"

mutual

/-- A value where names are expected: text is a name, an array is a list of names without
parentheses, an object is one name that spells its JSON text. -/
def identifierOfJson : Json → String
  | .null => "NULL"
  | .bool b => boolText b
  | .number n => numberText n
  | .string s => identifier s
  | .array items => ", ".intercalate (identifiersOfJson items)
  | .object members => quoteName (Json.object members).compact

def identifiersOfJson : List Json → List String
  | [] => []
  | item :: rest => identifierOfJson item :: identifiersOfJson rest

end

end DescriptorSql.Sql
