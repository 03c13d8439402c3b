import DescriptorSql.CharClass.Alphabetic
import DescriptorSql.CharClass.Mark
import DescriptorSql.CharClass.Number
import DescriptorSql.CharClass.Connector

/-!
# `CharClass/Word.lean` — word characters, alphanumeric characters

Two classes that overlap without either containing the other. A *word* character may stand in a
placeholder's name: it takes marks, connector punctuation and join controls, but no superscript and
no fraction. An *alphanumeric* character takes every number, and a mark only where it is Alphabetic.
-/

set_option autoImplicit false

namespace DescriptorSql.CharClass

/-- Alphabetic, Mark, decimal number, connector punctuation or join control. -/
def isWord (c : Char) : Bool :=
  alphabetic.contains c.toNat || decimalNumber.contains c.toNat ||
    connectorPunctuation.contains c.toNat || mark.contains c.toNat || joinControl.contains c.toNat

/-- Alphabetic or of a numeric category. -/
def isAlphanumeric (c : Char) : Bool :=
  alphabetic.contains c.toNat || decimalNumber.contains c.toNat || otherNumber.contains c.toNat

end DescriptorSql.CharClass
