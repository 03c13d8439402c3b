import DescriptorSql.Json.Lexeme

/-!
# `Json/Reader.lean` — reading JSON text

Reading is a fold over the lexemes: the state is a stack of the containers that are still open, and
what may come next. A key that is written twice keeps its first place and takes its last value.
Nesting is bounded, so that hostile text is refused rather than followed.
-/

set_option autoImplicit false

namespace DescriptorSql.Json

/-- An open container; an object knows the key whose value is being read. -/
inductive Frame where
  | array (items : List Json)
  | object (members : Entries String Json) (key : String)

/-- What the text read so far leaves to be read. -/
inductive ReadState where
  | value (stack : List Frame)
  /-- The first item of an array, or its end. -/
  | firstItem (stack : List Frame)
  /-- A comma, or the end of an array; the items are in reverse. -/
  | afterItem (items : List Json) (stack : List Frame)
  /-- The first key of an object, or its end. -/
  | firstKey (stack : List Frame)
  | key (members : Entries String Json) (stack : List Frame)
  /-- The colon after a key. -/
  | colon (members : Entries String Json) (key : String) (stack : List Frame)
  /-- A comma, or the end of an object. -/
  | afterMember (members : Entries String Json) (stack : List Frame)
  | finished (value : Json)

/-- A value is complete: it goes to the container around it. -/
def deliver (value : Json) : List Frame → ReadState
  | [] => .finished value
  | .array items :: stack => .afterItem (value :: items) stack
  | .object members key :: stack => .afterMember (Entries.insert members key value) stack

/-- A lexeme where a value may start; `stack` holds the containers around it. -/
def startValue (maxDepth : Nat) (stack : List Frame) : Lexeme → Option ReadState
  | .scalar value => some (deliver value stack)
  | .openArray => if stack.length < maxDepth then some (.firstItem stack) else none
  | .openObject => if stack.length < maxDepth then some (.firstKey stack) else none
  | _ => none

def ReadState.next? (maxDepth : Nat) : ReadState → Lexeme → Option ReadState
  | .value stack, lexeme => startValue maxDepth stack lexeme
  | .firstItem stack, .closeArray => some (deliver (.array []) stack)
  | .firstItem stack, lexeme => startValue maxDepth (.array [] :: stack) lexeme
  | .afterItem items stack, .comma => some (.value (.array items :: stack))
  | .afterItem items stack, .closeArray => some (deliver (.array items.reverse) stack)
  | .firstKey stack, .closeObject => some (deliver (.object []) stack)
  | .firstKey stack, .scalar (.string name) => some (.colon [] name stack)
  | .key members stack, .scalar (.string name) => some (.colon members name stack)
  | .colon members name stack, .colon => some (.value (.object members name :: stack))
  | .afterMember members stack, .comma => some (.key members stack)
  | .afterMember members stack, .closeObject => some (deliver (.object members) stack)
  | _, _ => none

/-- The greatest nesting of containers in a file. -/
def greatestDepth : Nat := 127

/-- Reads one value with nothing after it, in which at most `maxDepth` containers are nested. -/
def read? (maxDepth : Nat) (text : String) : Option Json := do
  let lexemes ← lexemes? text.toList
  match ← lexemes.foldlM (ReadState.next? maxDepth) (.value []) with
  | .finished value => return value
  | _ => none

end DescriptorSql.Json
