import DescriptorSql.CharClass.Word

/-!
# `Binding/Run.lean` — a text as runs

For finding named parameters a text is a sequence of runs: the at signs that stand together, the
word characters that stand together, single quotes of either kind, and single other characters. Runs
are longest: no two neighbours could be one (`Run.push` joins them), and they spell the text
(`chars_ofChars`).
-/

set_option autoImplicit false

namespace DescriptorSql.Binding

open CharClass (isWord)

/-- A run of characters of one class. -/
inductive Run where
  /-- `count + 1` at signs. -/
  | sigils (count : Nat)
  /-- Word characters. -/
  | word (first : Char) (rest : List Char)
  /-- A single or a double quote. -/
  | quote (mark : Char)
  /-- Any other character. -/
  | other (c : Char)
  deriving DecidableEq, Repr

/-- The quotes that may stand around a parameter. -/
def isQuote (c : Char) : Bool := c == '\'' || c == '"'

namespace Run

def chars : Run → List Char
  | sigils count => List.replicate (count + 1) '@'
  | word first rest => first :: rest
  | quote mark => [mark]
  | other c => [c]

def head : Run → Char
  | sigils _ => '@'
  | word first _ => first
  | quote mark => mark
  | other c => c

def last : Run → Char
  | sigils _ => '@'
  | word first rest => rest.getLastD first
  | quote mark => mark
  | other c => c

/-- Puts a character in front of runs. -/
def push (c : Char) (runs : List Run) : List Run :=
  if c = '@' then
    match runs with
    | sigils count :: rest => sigils (count + 1) :: rest
    | runs => sigils 0 :: runs
  else if isWord c then
    match runs with
    | word first more :: rest => word c (first :: more) :: rest
    | runs => word c [] :: runs
  else if isQuote c then quote c :: runs
  else other c :: runs

def ofChars : List Char → List Run
  | [] => []
  | c :: rest => push c (ofChars rest)

/-- A character in front of runs is the first character they spell. -/
theorem chars_push (c : Char) (runs : List Run) :
    (push c runs).flatMap chars = c :: runs.flatMap chars := by
  unfold push
  split
  · next h =>
    subst h
    split <;> simp [chars, List.replicate_succ]
  · split
    · split <;> simp [chars]
    · split <;> simp [chars]

/-- The runs of a text spell it. -/
theorem chars_ofChars (cs : List Char) : (ofChars cs).flatMap chars = cs := by
  induction cs with
  | nil => rfl
  | cons c rest ih => rw [ofChars, chars_push, ih]

end Run

end DescriptorSql.Binding
