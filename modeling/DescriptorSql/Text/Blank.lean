/-!
# `Text/Blank.lean` — blank characters and trimming

Blank means the property White_Space: the ASCII controls from tab to carriage return, the space, and
the spaces and separators of the wider character set. Names are checked and statements are trimmed
with this class.
-/

set_option autoImplicit false

namespace DescriptorSql.Text

/-- The property White_Space. -/
def isBlank (c : Char) : Bool :=
  let n := c.toNat
  (0x09 ≤ n && n ≤ 0x0D) || n == 0x20 || n == 0x85 || n == 0xA0 || n == 0x1680 ||
    (0x2000 ≤ n && n ≤ 0x200A) || n == 0x2028 || n == 0x2029 || n == 0x202F || n == 0x205F ||
    n == 0x3000

/-- Drops the blanks at the end. -/
def dropTrailingBlanks (cs : List Char) : List Char :=
  (cs.reverse.dropWhile isBlank).reverse

/-- Drops the blanks at both ends. -/
def dropOuterBlanks (cs : List Char) : List Char :=
  dropTrailingBlanks (cs.dropWhile isBlank)

def trimEnd (s : String) : String := String.ofList (dropTrailingBlanks s.toList)

def trim (s : String) : String := String.ofList (dropOuterBlanks s.toList)

/-- The text holds nothing but blanks. -/
def isBlankText (s : String) : Bool := s.toList.all isBlank

@[simp] theorem toList_trim (s : String) : (trim s).toList = dropOuterBlanks s.toList :=
  String.toList_ofList

@[simp] theorem toList_trimEnd (s : String) : (trimEnd s).toList = dropTrailingBlanks s.toList :=
  String.toList_ofList

end DescriptorSql.Text
