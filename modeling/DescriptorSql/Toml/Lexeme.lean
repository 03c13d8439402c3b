import DescriptorSql.Json.Lexeme

/-!
# `Toml/Lexeme.lean` — the lexemes of TOML text

The text is read character by character: the state holds the lexemes so far and the one that is
being read (`Mode`), and `LexState.next?` takes one character. A run of plain characters is one
lexeme whatever it will turn out to be, because `1.5` is a number where a value stands and two parts
of a key where a key stands. Comments and blanks leave nothing behind, line ends do, and a bracket
remembers whether something stood right before it, since `[[` is only a header when its brackets
touch. A line end of two characters counts as one character everywhere, but a text that spans lines
holds it as it is written.
-/

set_option autoImplicit false

namespace DescriptorSql.Toml

inductive Lexeme where
  /-- One of `= [ ] { } ,`. -/
  | mark (c : Char) (touching : Bool)
  | newline
  | text (content : String) (multiline : Bool)
  | bare (run : List Char)

/-- What a quoted text admits. -/
structure TextStyle where
  /-- The quote: escapes mean something between double quotes only. -/
  quote : Char
  multiline : Bool

/-- What an escape that has begun still needs. -/
inductive Escape where
  | none
  | started
  /-- `left` more hexadecimal digits. -/
  | digits (left value : Nat)
  /-- A backslash at the end of a line drops the blanks up to the next text; `broken` when the line
  end has been seen. -/
  | lineBreak (broken : Bool)

/-- The lexeme that is being read; characters are in reverse. -/
inductive Mode where
  | between
  | comment
  | bare (run : List Char)
  /-- A date and a space: a time may follow. -/
  | afterDate (run : List Char)
  /-- One or two quotes: the text may turn out to be empty, or to span lines. -/
  | opening (quote : Char) (count : Nat)
  | text (style : TextStyle) (content : List Char) (escape : Escape)
  /-- Several quotes in a row in a text that spans lines. -/
  | quotes (quote : Char) (content : List Char) (count : Nat)
  /-- Right after the opening of a text that spans lines. -/
  | multilineStart (quote : Char)

/-- The lexemes so far in reverse, and the one that is being read. -/
structure LexState where
  lexemes : List Lexeme
  mode : Mode
  /-- The character before was no blank. -/
  touching : Bool

/-- A character of a bare key, a number or a date. -/
def isBareChar (c : Char) : Bool :=
  c.isAlphanum || c == '_' || c == '-' || c == '+' || c == '.' || c == ':'

/-- A control character, which no text may hold as it is; the tab is none. -/
def isForbidden (c : Char) : Bool := (c.toNat < 0x20 && c != '\t') || c.toNat == 0x7F

/-- A run shaped like a date. -/
def isDateShape : List Char → Bool
  | [a, b, c, d, '-', e, f, '-', g, h] => [a, b, c, d, e, f, g, h].all Decimal.isDigit
  | _ => false

/-- The character that a letter stands for after a backslash. -/
def shortEscape? : Char → Option Char
  | 'b' => some '\x08'
  | 't' => some '\t'
  | 'n' => some '\n'
  | 'f' => some '\x0c'
  | 'r' => some '\r'
  | 'e' => some '\x1b'
  | '\x22' => some '\x22'
  | '\\' => some '\\'
  | _ => none

/-- The number of hexadecimal digits after a letter. -/
def hexEscapeLength? : Char → Option Nat
  | 'x' => some 2
  | 'u' => some 4
  | 'U' => some 8
  | _ => none

/-- The character with a code, unless that is a surrogate or too great. -/
def scalarChar? (n : Nat) : Option Char :=
  if n < 0xD800 || (0xDFFF < n && n < 0x110000) then some (Char.ofNat n) else none

/-- The text of reversed characters. -/
def textOfReversed (content : List Char) : String := String.ofList content.reverse

namespace LexState

/-- A lexeme is complete, and the next one has not begun. -/
def emit (state : LexState) (lexeme : Lexeme) : LexState :=
  ⟨lexeme :: state.lexemes, .between, true⟩

def become (state : LexState) (mode : Mode) : LexState := { state with mode := mode }

/-- A character between lexemes. -/
def startWith? (state : LexState) (c : Char) : Option LexState :=
  if c == ' ' || c == '\t' then some ⟨state.lexemes, .between, false⟩
  else if c == '\n' then some ⟨.newline :: state.lexemes, .between, false⟩
  else if c == '#' then some (state.become .comment)
  else if c == '\'' || c == '"' then some (state.become (.opening c 1))
  else if c == '=' || c == '[' || c == ']' || c == '\x7b' || c == '\x7d' || c == ',' then
    some (state.emit (.mark c state.touching))
  else if isBareChar c then some (state.become (.bare [c]))
  else none

/-- A character after a bare run that it does not belong to. -/
def endBare? (state : LexState) (run : List Char) (c : Char) : Option LexState :=
  (state.emit (.bare run.reverse)).startWith? c

/-- A character of a text, outside an escape. -/
def textChar? (state : LexState) (style : TextStyle) (content : List Char) (c : Char) :
    Option LexState :=
  if c == style.quote then
    if style.multiline then some (state.become (.quotes style.quote content 1))
    else some (state.emit (.text (textOfReversed content) false))
  else if c == '\\' && style.quote == '"' then some (state.become (.text style content .started))
  else if c == '\n' then
    if style.multiline then some (state.become (.text style (c :: content) .none)) else none
  else if isForbidden c then none
  else some (state.become (.text style (c :: content) .none))

def escapeChar? (state : LexState) (style : TextStyle) (content : List Char) (c : Char) :
    Option LexState :=
  match shortEscape? c, hexEscapeLength? c with
  | some char, _ => some (state.become (.text style (char :: content) .none))
  | none, some left => some (state.become (.text style content (.digits left 0)))
  | none, none =>
    if style.multiline && (c == ' ' || c == '\t') then
      some (state.become (.text style content (.lineBreak false)))
    else if style.multiline && c == '\n' then
      some (state.become (.text style content (.lineBreak true)))
    else none

/-- A hexadecimal digit of an escape. -/
def digitChar? (state : LexState) (style : TextStyle) (content : List Char) (left value : Nat)
    (c : Char) : Option LexState := do
  let value := 16 * value + (← Json.hexDigit? c)
  if left ≤ 1 then
    return state.become (.text style ((← scalarChar? value) :: content) .none)
  else return state.become (.text style content (.digits (left - 1) value))

def next? (state : LexState) (c : Char) : Option LexState :=
  match state.mode with
  | .between => state.startWith? c
  | .comment =>
    if c == '\n' then state.startWith? c else if isForbidden c then none else some state
  | .bare run =>
    if isBareChar c then some (state.become (.bare (c :: run)))
    else if c == ' ' && isDateShape run.reverse then some (state.become (.afterDate run))
    else state.endBare? run c
  | .afterDate run =>
    if Decimal.isDigit c then some (state.become (.bare (c :: ' ' :: run)))
    else state.endBare? run ' ' >>= (·.startWith? c)
  | .opening quote count =>
    if c == quote then
      if count == 2 then some (state.become (.multilineStart quote))
      else some (state.become (.opening quote 2))
    else if count == 2 then (state.emit (.text "" false)).startWith? c
    else state.textChar? ⟨quote, false⟩ [] c
  | .multilineStart quote =>
    if c == '\n' then some (state.become (.text ⟨quote, true⟩ [] .none))
    else state.textChar? ⟨quote, true⟩ [] c
  | .text style content .none => state.textChar? style content c
  | .text style content .started => state.escapeChar? style content c
  | .text style content (.digits left value) => state.digitChar? style content left value c
  | .text style content (.lineBreak broken) =>
    if c == '\n' then some (state.become (.text style content (.lineBreak true)))
    else if c == ' ' || c == '\t' then some state
    else if broken then state.textChar? style content c
    else none
  | .quotes quote content count =>
    if c == quote then
      if count < 5 then some (state.become (.quotes quote content (count + 1))) else none
    else if 3 ≤ count then
      (state.emit
        (.text (textOfReversed (List.replicate (count - 3) quote ++ content)) true)).startWith? c
    else state.textChar? ⟨quote, true⟩ (List.replicate count quote ++ content) c

/-- The first character of a line end of two, which only a text that spans lines keeps. -/
def lineReturn (state : LexState) : LexState :=
  match state.mode with
  | .text style content .none => state.become (.text style ('\r' :: content) .none)
  | .quotes quote content count =>
    if count < 3 then
      state.become (.text ⟨quote, true⟩ ('\r' :: List.replicate count quote ++ content) .none)
    else state
  | _ => state

def read? (state : LexState) : List Char → Option LexState
  | [] => some state
  | '\r' :: '\n' :: rest =>
    match state.lineReturn.next? '\n' with
    | some state => state.read? rest
    | none => none
  | c :: rest =>
    match state.next? c with
    | some state => state.read? rest
    | none => none

end LexState

/-- A text without the mark of its byte order, which may stand at the start. -/
def dropByteOrderMark : List Char → List Char
  | '\uFEFF' :: rest => rest
  | cs => cs

/-- The lexemes of a text, with a line end after it. -/
def lexemes? (text : String) : Option (List Lexeme) := do
  let start : LexState := ⟨[], .between, false⟩
  let state ← start.read? (dropByteOrderMark text.toList)
  let state ← state.next? '\n'
  match state.mode with
  | .between => return state.lexemes.reverse
  | _ => none

end DescriptorSql.Toml
