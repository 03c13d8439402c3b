import DescriptorSql.Binding.Slot
import DescriptorSql.Descriptor.Error
import DescriptorSql.Sql.Literal
import DescriptorSql.Text.Blank

/-!
# `Binding/Bind.lean` — filling in named parameters

A value parameter becomes the next positional parameter and its value joins the list of values, once
for every occurrence. A name parameter is replaced by its value as a quoted name, and a verbatim one
by its value as it is. What is filled in is not looked at again.
-/

set_option autoImplicit false

namespace DescriptorSql.Binding

/-- A text with positional parameters, and their values in order. -/
structure BoundQuery where
  sql : String
  values : List Json

/-- A value that is filled in as it is: a text's own characters, or any other value's JSON text. -/
def verbatimText : Json → String
  | .string text => text
  | value => value.compact

/-- A segment with the number of values bound before it: the text it becomes, and the values it
binds. -/
def fill (values : Entries String Json) (bound : Nat) :
    Segment → Except QueryError (String × List Json)
  | .text chars => .ok (String.ofList chars, [])
  | .slot sigil name =>
    match Entries.get? values (String.ofList name) with
    | none => .error (.missingParameterValue (String.ofList name))
    | some value =>
      match sigil with
      | .value => .ok ("$" ++ Nat.repr (bound + 1), [value])
      | .identifier => .ok (Sql.identifierOfJson value, [])
      | .verbatim => .ok (verbatimText value, [])

/-- Segments in sequence, after a number of values. -/
def fillAll (values : Entries String Json) (bound : Nat) :
    List Segment → Except QueryError BoundQuery
  | [] => .ok ⟨"", []⟩
  | segment :: rest => do
    let (text, own) ← fill values bound segment
    let others ← fillAll values (bound + own.length) rest
    return ⟨text ++ others.sql, own ++ others.values⟩

/-- Binds the named parameters of a text that is not blank. -/
def bind (values : Entries String Json) (sql : String) : Except QueryError BoundQuery :=
  if Text.isBlankText sql then .error .emptyQuery
  else fillAll values 0 (segmentsOfText sql)

end DescriptorSql.Binding
