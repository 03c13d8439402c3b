import DescriptorSql.Text.Quoted
import DescriptorSql.Toml.Document
import DescriptorSql.Toml.Lexeme
import DescriptorSql.Toml.Scalar

/-!
# `Toml/Reader.lean` — reading TOML text

Reading is a fold over the lexemes. The state is the document so far, the path of the header above,
and what may come next (`Expect`); the values that are still open are on a stack whose lowest frame
is the statement that the value belongs to. Lines may end anywhere inside an array or an inline
table except inside a key. Outside of them a line ends where its statement or header does.
-/

set_option autoImplicit false

namespace DescriptorSql.Toml

/-! ## Keys -/

/-- The parts of a dotted key so far in reverse, and whether a part has to follow. -/
structure KeyDraft where
  parts : List String
  needsPart : Bool

def KeyDraft.start : KeyDraft := ⟨[], true⟩

namespace KeyDraft

/-- A character of a bare key. -/
def isKeyChar (c : Char) : Bool := c.isAlphanum || c == '_' || c == '-'

/-- One more part. -/
def addPart? (key : KeyDraft) (part : String) : Option KeyDraft :=
  if key.needsPart then some ⟨part :: key.parts, false⟩ else none

def addDot? (key : KeyDraft) : Option KeyDraft :=
  if key.needsPart then none else some ⟨key.parts, true⟩

/-- A part between dots; nothing stands there if the dot is at the end of the run. -/
def addPiece? (key : KeyDraft) (piece : List Char) : Option KeyDraft :=
  if piece.isEmpty then some key
  else if piece.all isKeyChar then key.addPart? (String.ofList piece)
  else none

/-- The parts and dots of a bare run. -/
def addRun? (key : KeyDraft) (run : List Char) : Option KeyDraft :=
  match Text.splitAt '.' run with
  | [] => none
  | first :: rest => do
    let key ← key.addPiece? first
    rest.foldlM (fun key piece => key.addDot? >>= (·.addPiece? piece)) key

/-- One lexeme of a key. -/
def add? (key : KeyDraft) : Lexeme → Option KeyDraft
  | .bare run => key.addRun? run
  | .text part false => key.addPart? part
  | _ => none

/-- The greatest number of parts. -/
def greatestLength : Nat := 80

/-- The whole key: its parts but the last, and the last. -/
def finish? (key : KeyDraft) : Option (List String × String) :=
  match key.needsPart, key.parts with
  | false, last :: path =>
    if path.length < greatestLength then some (path.reverse, last) else none
  | _, _ => none

end KeyDraft

/-! ## States -/

/-- A value that is still open, or the statement it belongs to. -/
inductive Frame where
  /-- A statement, waiting for the value of a key. -/
  | statement (path : List String) (key : String)
  /-- An array, its items in reverse. -/
  | array (items : List Json)
  /-- An inline table, waiting for the value of a key. -/
  | inline (entries : Entries String Node) (path : List String) (key : String)

/-- What may come next. -/
inductive Expect where
  | line
  | lineEnd
  /-- The key of a header or its closing bracket. -/
  | header (double : Bool) (key : KeyDraft)
  /-- The second closing bracket of a header. -/
  | headerEnd (path : List String) (key : String)
  /-- The key of a statement or its equals sign. -/
  | key (key : KeyDraft)
  | value (stack : List Frame)
  /-- An item of an array or its end. -/
  | item (items : List Json) (stack : List Frame)
  /-- A comma or the end of an array. -/
  | afterItem (items : List Json) (stack : List Frame)
  /-- The key of an entry of an inline table or its equals sign; or the end of the table, while the
  key has not begun. -/
  | entry (entries : Entries String Node) (key : KeyDraft) (stack : List Frame)
  /-- The equals sign of an entry whose key is complete because its line has ended. -/
  | equals (entries : Entries String Node) (path : List String) (key : String)
    (stack : List Frame)
  /-- A comma or the end of an inline table. -/
  | afterEntry (entries : Entries String Node) (stack : List Frame)

/-- The document so far, the path of the header above, and what may come next. -/
structure ReadState where
  root : Entries String Node
  header : List String
  expect : Expect

namespace ReadState

/-- The greatest number of values that are open at once. -/
def greatestDepth : Nat := 80

/-- Goes on with something else to come. -/
def await (state : ReadState) (expect : Expect) : ReadState := { state with expect := expect }

/-- A value is complete: it goes to the value around it, or to its statement. -/
def deliver? (state : ReadState) (content : Json) : List Frame → Option ReadState
  | [] => none
  | .statement path key :: _ => do
    let root ← changeAt (insertDotted key (.value content) path) state.header state.root
    return ⟨root, state.header, .lineEnd⟩
  | .array items :: stack => some (state.await (.afterItem (content :: items) stack))
  | .inline entries path key :: stack => do
    let entries ← insertDotted key (.value content) path entries
    return state.await (.afterEntry entries stack)

def deliverTable? (state : ReadState) (entries : Entries String Node) (stack : List Frame) :
    Option ReadState :=
  state.deliver? (Node.table .header entries).toJson stack

/-- A lexeme where a value starts. -/
def startValue? (state : ReadState) (stack : List Frame) : Lexeme → Option ReadState
  | .text content _ => state.deliver? (.string content) stack
  | .bare run => scalar? run >>= (state.deliver? · stack)
  | .mark '[' _ =>
    if stack.length ≤ greatestDepth then some (state.await (.item [] stack)) else none
  | .mark '\x7b' _ =>
    if stack.length ≤ greatestDepth then some (state.await (.entry [] .start stack)) else none
  | _ => none

/-- The header that a path names is opened. -/
def enter? (state : ReadState) (open? : Entries String Node → Option (Entries String Node))
    (path : List String) (key : String) : Option ReadState := do
  let root ← changeAt open? path state.root
  return ⟨root, path ++ [key], .lineEnd⟩

/-- A lexeme at the start of a line. -/
def startLine? (state : ReadState) : Lexeme → Option ReadState
  | .newline => some state
  | .mark '[' _ => some (state.await (.header false .start))
  | lexeme => (KeyDraft.start.add? lexeme).map (state.await ∘ .key)

/-- A lexeme in a header. -/
def inHeader? (state : ReadState) (double : Bool) (key : KeyDraft) :
    Lexeme → Option ReadState
  | .mark '[' touching =>
    if touching && !double && key.parts.isEmpty then some (state.await (.header true key))
    else none
  | .mark ']' _ => do
    let (path, last) ← key.finish?
    if double then return state.await (.headerEnd path last)
    else state.enter? (openTable last) path last
  | lexeme => (key.add? lexeme).map (state.await ∘ .header double)

def next? (state : ReadState) (lexeme : Lexeme) : Option ReadState :=
  match state.expect, lexeme with
  | .line, lexeme => state.startLine? lexeme
  | .lineEnd, .newline => some (state.await .line)
  | .lineEnd, _ => none
  | .header double key, lexeme => state.inHeader? double key lexeme
  | .headerEnd path key, .mark ']' true => state.enter? (appendTable key) path key
  | .headerEnd _ _, _ => none
  | .key key, .mark '=' _ => do
    let (path, last) ← key.finish?
    return state.await (.value [.statement path last])
  | .key key, lexeme => (key.add? lexeme).map (state.await ∘ .key)
  | .value (.inline _ _ _ :: _), .newline => some state
  | .value stack, lexeme => state.startValue? stack lexeme
  | .item _ _, .newline => some state
  | .item items stack, .mark ']' _ => state.deliver? (.array items.reverse) stack
  | .item items stack, lexeme => state.startValue? (.array items :: stack) lexeme
  | .afterItem _ _, .newline => some state
  | .afterItem items stack, .mark ',' _ => some (state.await (.item items stack))
  | .afterItem items stack, .mark ']' _ => state.deliver? (.array items.reverse) stack
  | .afterItem _ _, _ => none
  | .entry entries key stack, .newline =>
    if key.parts.isEmpty then some state
    else do
      let (path, last) ← key.finish?
      return state.await (.equals entries path last stack)
  | .entry entries key stack, .mark '\x7d' _ =>
    if key.parts.isEmpty then state.deliverTable? entries stack else none
  | .entry entries key stack, .mark '=' _ => do
    let (path, last) ← key.finish?
    return state.await (.value (.inline entries path last :: stack))
  | .entry entries key stack, lexeme =>
    (key.add? lexeme).map fun key => state.await (.entry entries key stack)
  | .equals _ _ _ _, .newline => some state
  | .equals entries path key stack, .mark '=' _ =>
    some (state.await (.value (.inline entries path key :: stack)))
  | .equals _ _ _ _, _ => none
  | .afterEntry _ _, .newline => some state
  | .afterEntry entries stack, .mark ',' _ => some (state.await (.entry entries .start stack))
  | .afterEntry entries stack, .mark '\x7d' _ => state.deliverTable? entries stack
  | .afterEntry _ _, _ => none

end ReadState

/-- Reads a document as a JSON object, its tables in the order of their keys. -/
def read? (text : String) : Option Json := do
  let lexemes ← lexemes? text
  let state ← lexemes.foldlM ReadState.next? ⟨[], [], .line⟩
  match state.expect with
  | .line => return (Node.table .header state.root).toJson
  | _ => none

end DescriptorSql.Toml
