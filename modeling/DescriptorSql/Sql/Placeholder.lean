import DescriptorSql.CharClass.Word
import DescriptorSql.Text.Blank

/-!
# `Sql/Placeholder.lean` — text that passes through unquoted

Placeholders are left for whoever runs the statement: `?` and `??`, `:name` with up to two colons
after it, `${…}` and `$name` (which takes in `$1`). Values pass two keywords through as well, in any
case: `NULL` and `NOT NULL`.
-/

set_option autoImplicit false

namespace DescriptorSql.Sql

open CharClass (isWord)

/-- One question mark or two. -/
def isQuestionPlaceholder (cs : List Char) : Bool := cs = ['?'] || cs = ['?', '?']

/-- `:name`, `:name:` or `:name::`. -/
def isColonPlaceholder : List Char → Bool
  | ':' :: rest =>
    let after := rest.dropWhile isWord
    !(rest.takeWhile isWord).isEmpty && (after = [] || after = [':'] || after = [':', ':'])
  | _ => false

/-- `$name`. -/
def isDollarPlaceholder : List Char → Bool
  | '$' :: name => !name.isEmpty && name.all isWord
  | _ => false

/-- `${…}`, with no closing brace inside. -/
def isBracePlaceholder : List Char → Bool
  | '$' :: '\x7b' :: rest => rest.dropWhile (· != '\x7d') = ['\x7d']
  | _ => false

def isPlaceholder (cs : List Char) : Bool :=
  isQuestionPlaceholder cs || isColonPlaceholder cs || isBracePlaceholder cs ||
    isDollarPlaceholder cs

/-- The text spells an ASCII word in some mix of cases. -/
def spells (upper : List Char) (cs : List Char) : Bool := cs.map Char.toUpper = upper

def isNullWord (cs : List Char) : Bool := spells ['N', 'U', 'L', 'L'] cs

/-- `NULL`, or `NOT` and `NULL` with blanks between them, in any case. -/
def isNullKeyword (cs : List Char) : Bool :=
  isNullWord cs ||
    (spells ['N', 'O', 'T'] (cs.take 3) &&
      (match cs.drop 3 with
        | [] => false
        | c :: rest => Text.isBlank c && isNullWord (rest.dropWhile Text.isBlank)))

end DescriptorSql.Sql
