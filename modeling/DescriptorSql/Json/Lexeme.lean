import DescriptorSql.Json.Basic
import DescriptorSql.Number.Decimal

/-!
# `Json/Lexeme.lean` — the lexemes of JSON text

JSON text is a sequence of marks and scalars with white space between them. Scalars need no
separator: two of them side by side are refused by the grammar, whatever stands between. `lexemes?`
is total by the length of the text that is left: every lexeme takes at least one character.
-/

set_option autoImplicit false

namespace DescriptorSql.Json

/-- A mark, or a whole scalar. -/
inductive Lexeme where
  | openArray
  | closeArray
  | openObject
  | closeObject
  | comma
  | colon
  | scalar (value : Json)

/-- White space between lexemes. -/
def isSpace (c : Char) : Bool := c == ' ' || c == '\t' || c == '\n' || c == '\r'

/-! ## Strings -/

/-- The value of a hexadecimal digit. -/
def hexDigit? (c : Char) : Option Nat :=
  if '0' ≤ c && c ≤ '9' then some (c.toNat - '0'.toNat)
  else if 'a' ≤ c && c ≤ 'f' then some (c.toNat - 'a'.toNat + 10)
  else if 'A' ≤ c && c ≤ 'F' then some (c.toNat - 'A'.toNat + 10)
  else none

/-- The value of four hexadecimal digits. -/
def hexUnit? (a b c d : Char) : Option Nat := do
  let a ← hexDigit? a
  let b ← hexDigit? b
  let c ← hexDigit? c
  let d ← hexDigit? d
  return ((a * 16 + b) * 16 + c) * 16 + d

/-- The first unit of a surrogate pair. -/
def isHighSurrogate (n : Nat) : Bool := 0xD800 ≤ n && n < 0xDC00

/-- The second unit of a surrogate pair. -/
def isLowSurrogate (n : Nat) : Bool := 0xDC00 ≤ n && n < 0xE000

/-- The character of a surrogate pair. -/
def pairedChar (high low : Nat) : Char :=
  Char.ofNat (0x10000 + (high - 0xD800) * 0x400 + (low - 0xDC00))

/-- The character after a backslash in a short escape. -/
def shortEscape? : Char → Option Char
  | '\x22' => some '\x22'
  | '\\' => some '\\'
  | '/' => some '/'
  | 'b' => some '\x08'
  | 'f' => some '\x0c'
  | 'n' => some '\n'
  | 'r' => some '\r'
  | 't' => some '\t'
  | _ => none

/-- The first character written at the front of a string's body, and the rest. A surrogate is
written as a pair or not at all, and a control character only as an escape. -/
def stringChar? : List Char → Option (Char × List Char)
  | '\\' :: 'u' :: a :: b :: c :: d :: '\\' :: 'u' :: e :: f :: g :: h :: rest => do
    let first ← hexUnit? a b c d
    if isHighSurrogate first then
      let second ← hexUnit? e f g h
      if isLowSurrogate second then return (pairedChar first second, rest) else none
    else if isLowSurrogate first then none
    else return (Char.ofNat first, '\\' :: 'u' :: e :: f :: g :: h :: rest)
  | '\\' :: 'u' :: a :: b :: c :: d :: rest => do
    let unit ← hexUnit? a b c d
    if isHighSurrogate unit || isLowSurrogate unit then none else return (Char.ofNat unit, rest)
  | '\\' :: c :: rest => (shortEscape? c).map (·, rest)
  | c :: rest => if c.toNat < 0x20 || c == '\\' then none else some (c, rest)
  | [] => none

theorem length_lt_of_stringChar? {cs rest : List Char} {c : Char}
    (h : stringChar? cs = some (c, rest)) : rest.length < cs.length := by
  unfold stringChar? at h
  split at h
  · simp only [Option.bind_eq_bind] at h
    obtain ⟨first, -, h⟩ := Option.bind_eq_some_iff.mp h
    split at h
    · obtain ⟨second, -, h⟩ := Option.bind_eq_some_iff.mp h
      split at h
      · simp only [pure, Option.some.injEq, Prod.mk.injEq] at h
        simp only [← h.2, List.length_cons]; omega
      · simp at h
    · split at h
      · simp at h
      · simp only [pure, Option.some.injEq, Prod.mk.injEq] at h
        simp only [← h.2, List.length_cons]; omega
  · simp only [Option.bind_eq_bind] at h
    obtain ⟨unit, -, h⟩ := Option.bind_eq_some_iff.mp h
    split at h
    · simp at h
    · simp only [pure, Option.some.injEq, Prod.mk.injEq] at h
      simp only [← h.2, List.length_cons]; omega
  · obtain ⟨e, -, h⟩ := Option.map_eq_some_iff.mp h
    simp only [Prod.mk.injEq] at h
    simp only [← h.2, List.length_cons]; omega
  · split at h
    · simp at h
    · simp only [Option.some.injEq, Prod.mk.injEq] at h
      simp [← h.2]
  · simp at h

/-- The characters of a string up to its closing quote, and what follows the quote. -/
def stringBody? (cs : List Char) : Option (List Char × List Char) :=
  match cs with
  | '\x22' :: rest => some ([], rest)
  | cs =>
    match _h : stringChar? cs with
    | none => none
    | some (c, rest) => (stringBody? rest).map fun (body, after) => (c :: body, after)
  termination_by cs.length
  decreasing_by exact length_lt_of_stringChar? _h

theorem length_le_of_stringBody? {cs body after : List Char}
    (h : stringBody? cs = some (body, after)) : after.length ≤ cs.length := by
  fun_induction stringBody? cs generalizing body after with
  | case1 rest =>
    simp only [Option.some.injEq, Prod.mk.injEq] at h
    simp [← h.2]
  | case2 => simp at h
  | case3 cs _ c rest hc ih =>
    obtain ⟨⟨b, a⟩, hb, heq⟩ := Option.map_eq_some_iff.mp h
    simp only [Prod.mk.injEq] at heq
    have := ih hb
    have := length_lt_of_stringChar? hc
    rw [← heq.2]; omega

/-! ## Numbers -/

/-- A character that can stand in a number. -/
def isNumberChar (c : Char) : Bool :=
  Decimal.isDigit c || c == '-' || c == '+' || c == '.' || c == 'e' || c == 'E'

/-- The integer part is zero, or starts with another digit. -/
def isPlainInteger : List Char → Bool
  | [] => false
  | ['0'] => true
  | c :: _ => c != '0'

/-- A digit stands after the point, if there is a point. -/
def hasFractionDigit : List Char → Bool
  | '.' :: c :: _ => Decimal.isDigit c
  | '.' :: [] => false
  | _ => true

/-- A run of number characters as a number. An integer stays one if it fits 64 bits; minus zero does
not. A number too great for a finite value is refused.

A double is the one nearest to the decimal that is written (`Decimal.toBinary64?`). A reader that
multiplies or divides the digits by a power of ten in floating point is less exact: it rounds more
than once, and may be off in the last place, as with `1e-23`. -/
def number? (cs : List Char) : Option JsonNumber := do
  let unsigned := if cs.head? = some '-' then cs.tail else cs
  let whole := unsigned.takeWhile Decimal.isDigit
  if isPlainInteger whole && hasFractionDigit (unsigned.dropWhile Decimal.isDigit) then
    let decimal ← Decimal.ofChars? cs
    let integer : Int := if decimal.negative then -decimal.coefficient else decimal.coefficient
    let minusZero := decimal.negative && decimal.coefficient == 0
    if unsigned.all Decimal.isDigit && isWordInteger integer && !minusZero then
      return .int integer
    else return .double (← decimal.toBinary64?)
  else none

/-! ## All lexemes -/

/-- The lexemes of a text, `none` if some part of it is no lexeme. -/
def lexemes? (cs : List Char) : Option (List Lexeme) :=
  match cs with
  | [] => some []
  | '[' :: rest => (lexemes? rest).map (.openArray :: ·)
  | ']' :: rest => (lexemes? rest).map (.closeArray :: ·)
  | '\x7b' :: rest => (lexemes? rest).map (.openObject :: ·)
  | '\x7d' :: rest => (lexemes? rest).map (.closeObject :: ·)
  | ',' :: rest => (lexemes? rest).map (.comma :: ·)
  | ':' :: rest => (lexemes? rest).map (.colon :: ·)
  | 't' :: 'r' :: 'u' :: 'e' :: rest => (lexemes? rest).map (.scalar (.bool true) :: ·)
  | 'f' :: 'a' :: 'l' :: 's' :: 'e' :: rest => (lexemes? rest).map (.scalar (.bool false) :: ·)
  | 'n' :: 'u' :: 'l' :: 'l' :: rest => (lexemes? rest).map (.scalar .null :: ·)
  | '\x22' :: rest =>
    match h : stringBody? rest with
    | none => none
    | some (body, after) =>
      have := length_le_of_stringBody? h
      (lexemes? after).map (.scalar (.string (String.ofList body)) :: ·)
  | c :: rest =>
    if isSpace c then lexemes? rest
    else if isNumberChar c then
      match number? (c :: rest.takeWhile isNumberChar) with
      | none => none
      | some n =>
        have := (List.dropWhile_sublist isNumberChar (l := rest)).length_le
        (lexemes? (rest.dropWhile isNumberChar)).map (.scalar (.number n) :: ·)
    else none
  termination_by cs.length

end DescriptorSql.Json
