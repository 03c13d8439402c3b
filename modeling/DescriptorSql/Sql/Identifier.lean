import DescriptorSql.Sql.Raw
import DescriptorSql.Sql.Placeholder
import DescriptorSql.Text.Quoted
import DescriptorSql.Number.Decimal

/-!
# `Sql/Identifier.lean` — names in a statement

A name is cut at its dots and every piece is double-quoted, the piece `*` excepted. Some texts stand
where a name is expected and are no names: raw SQL, blank text, `*`, numbers, placeholders, and
anything with a parenthesis, which is taken for an expression. They are written as they are.
-/

set_option autoImplicit false

namespace DescriptorSql.Sql

/-! ## Numbers where a name is expected -/

/-- The digit's value, if the radix has it. -/
def radixDigit? (radix : Nat) (c : Char) : Option Nat :=
  let value :=
    if '0' ≤ c && c ≤ '9' then c.toNat - '0'.toNat
    else if 'a' ≤ c && c ≤ 'z' then c.toNat - 'a'.toNat + 10
    else if 'A' ≤ c && c ≤ 'Z' then c.toNat - 'A'.toNat + 10
    else radix
  if value < radix then some value else none

/-- An unsigned 64-bit number in a radix: at least one digit, after an optional plus sign. -/
def isWordInRadix (radix : Nat) (cs : List Char) : Bool :=
  let digits := if cs.head? = some '+' then cs.tail else cs
  match digits.mapM (radixDigit? radix) with
  | none => false
  | some values => !values.isEmpty && values.foldl (fun n d => radix * n + d) 0 < Nat.pow 2 64

/-- A decimal number that rounds to a finite value, an infinity by name, or a number after a radix
mark, blanks around it aside. -/
def isNumeric (cs : List Char) : Bool :=
  match Text.dropOuterBlanks cs with
  | '0' :: 'x' :: digits | '0' :: 'X' :: digits => isWordInRadix 16 digits
  | '0' :: 'o' :: digits | '0' :: 'O' :: digits => isWordInRadix 8 digits
  | '0' :: 'b' :: digits | '0' :: 'B' :: digits => isWordInRadix 2 digits
  | text =>
    text = "Infinity".toList || text = "+Infinity".toList || text = "-Infinity".toList ||
      ((Decimal.ofChars? text).bind Decimal.toBinary64?).isSome

/-! ## Quoting -/

/-- The text is no name, and is written as it is. -/
def isVerbatimIdentifier (cs : List Char) : Bool :=
  cs.all Text.isBlank || cs = ['*'] || isNumeric cs || cs.contains '(' || cs.contains ')' ||
    isPlaceholder cs

def quotePiece (piece : List Char) : List Char :=
  if piece = ['*'] then piece else Text.enclose '"' piece

/-- A dotted name, every piece quoted. -/
def quotePath (cs : List Char) : List Char :=
  ['.'].intercalate ((Text.splitAt '.' cs).map quotePiece)

/-- A name as it stands in a statement. -/
def identifier (name : String) : String :=
  match stripRaw? name with
  | some sql => sql
  | none =>
    if isVerbatimIdentifier name.toList then name else String.ofList (quotePath name.toList)

/-- One name in double quotes, dots and all. -/
def quoteName (name : String) : String := String.ofList (Text.enclose '"' name.toList)

/-- `"table"."field" = "table"."field"`. -/
def equate (table field otherTable otherField : String) : String :=
  identifier (table ++ "." ++ field) ++ " = " ++ identifier (otherTable ++ "." ++ otherField)

/-- A table, under an alias if there is one. -/
def tableRef (table : String) (alias? : Option String) : String :=
  match alias? with
  | some name => identifier table ++ " AS " ++ identifier name
  | none => identifier table

/-- A call of a function on columns, marked as raw SQL: the name in upper case, the arguments
quoted. -/
def functionCall (name : String) (arguments : List String) : String :=
  raw (upperText name ++ "(" ++ ", ".intercalate (arguments.map identifier) ++ ")")

end DescriptorSql.Sql
