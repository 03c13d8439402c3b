import DescriptorSql.Binding.Run

/-!
# `Binding/Slot.lean` — the named parameters of a text

A named parameter is one to three at signs and a name. It may stand between two equal quotes, which
then belong to it. It has to stand alone: a neighbour that is alphanumeric, a low line, a dot or an
at sign makes it a part of something else, such as a mail address. A quoted name parameter may have
dots beside it, so that the parts of a qualified name can each be a parameter. Where the quoted form
does not stand alone, the form without its quotes may.

`segments` cuts a text into parameters and the text between them. A quote after a name is taken
together with it, and does not open a later parameter.
-/

set_option autoImplicit false

namespace DescriptorSql.Binding

/-- What a parameter stands for: a value, a name, or a piece of the statement. -/
inductive Sigil where
  | value
  | identifier
  | verbatim
  deriving DecidableEq, Repr

/-- The sigil of a run of `count + 1` at signs. -/
def Sigil.ofCount? : Nat → Option Sigil
  | 0 => some .value
  | 1 => some .identifier
  | 2 => some .verbatim
  | _ => none

/-- A piece of a text: characters to keep, or a parameter to fill in. -/
inductive Segment where
  | text (chars : List Char)
  | slot (sigil : Sigil) (name : List Char)
  deriving DecidableEq, Repr

/-- A character that makes a parameter beside it a part of something else. -/
def isGlue (c : Char) : Bool := CharClass.isAlphanumeric c || c == '_' || c == '.' || c == '@'

/-- A neighbour, if there is one, that leaves a parameter alone; `dotted` admits dots. -/
def isFree (dotted : Bool) (neighbour? : Option Char) : Bool :=
  !neighbour?.any fun c => isGlue c && !(dotted && c == '.')

/-- A parameter in its surroundings: the quotes right beside it, and the characters beside those. -/
structure Occurrence where
  before : Option Char
  opening : Option Char
  count : Nat
  name : List Char
  closing : Option Char
  after : Option Char

namespace Occurrence

def chars (o : Occurrence) : List Char :=
  o.opening.toList ++ List.replicate (o.count + 1) '@' ++ o.name ++ o.closing.toList

/-- The parameter stands between two equal quotes. -/
def isQuoted (o : Occurrence) : Bool := o.opening.isSome && o.opening == o.closing

/-- The quoted form stands alone. -/
def isFreeWithQuotes (o : Occurrence) (sigil : Sigil) : Bool :=
  isFree (sigil = .identifier) o.before && isFree (sigil = .identifier) o.after

/-- The form without quotes stands alone. -/
def isFreeWithoutQuotes (o : Occurrence) : Bool :=
  isFree false (o.opening <|> o.before) && isFree false (o.closing <|> o.after)

/-- The occurrence as segments: with its quotes, without them, or as mere text. -/
def segments (o : Occurrence) : List Segment :=
  match Sigil.ofCount? o.count with
  | none => [.text o.chars]
  | some sigil =>
    if o.isQuoted && o.isFreeWithQuotes sigil then [.slot sigil o.name]
    else if o.isFreeWithoutQuotes then
      [.text o.opening.toList, .slot sigil o.name, .text o.closing.toList]
    else [.text o.chars]

end Occurrence

/-- The first character of the text that runs spell. -/
def firstChar? (runs : List Run) : Option Char := runs.head?.map Run.head

/-- The segments of a text; `before` is the character in front of it. -/
def segments (before : Option Char) : List Run → List Segment
  | .quote opening :: .sigils count :: .word first name :: .quote closing :: rest =>
    Occurrence.segments
        ⟨before, some opening, count, first :: name, some closing, firstChar? rest⟩ ++
      segments (some closing) rest
  | .quote opening :: .sigils count :: .word first name :: rest =>
    Occurrence.segments ⟨before, some opening, count, first :: name, none, firstChar? rest⟩ ++
      segments (some (Run.word first name).last) rest
  | .sigils count :: .word first name :: .quote closing :: rest =>
    Occurrence.segments ⟨before, none, count, first :: name, some closing, firstChar? rest⟩ ++
      segments (some closing) rest
  | .sigils count :: .word first name :: rest =>
    Occurrence.segments ⟨before, none, count, first :: name, none, firstChar? rest⟩ ++
      segments (some (Run.word first name).last) rest
  | run :: rest => .text run.chars :: segments (some run.last) rest
  | [] => []

def segmentsOfText (sql : String) : List Segment := segments none (Run.ofChars sql.toList)

end DescriptorSql.Binding
