import DescriptorSql.Entries
import DescriptorSql.Descriptor.Error

/-!
# `Descriptor/Record.lean` — reading records from JSON

A record is read from an object whose keys are its fields, or from an array of its fields in order.
Values are read in the order in which they are written, so the first mistake in the text is the one
that is reported; a field that is missing is noticed only when everything that is there has been
read. A field may have several spellings, and writing it under two of them is a mistake. Unknown
keys are ignored, but what stands under them is still read as numbers, texts and containers, so a
number out of range is a mistake there too; items beyond the fields of a record are not read at all.

What is read goes into a draft: `step` stores one field, and `finish` turns the draft into the
record and asks for the fields that have no default (`RecordForm.require`).
-/

set_option autoImplicit false

namespace DescriptorSql

/-- What differs between formats that carry the same values. -/
structure SourceFormat where
  /-- An array that stands for a record may have more items than fields. -/
  allowsExtraItems : Bool
  /-- The content of a variant without content is an empty container, and not a null. -/
  emptyContentIsContainer : Bool
  /-- A number may be out of range, which is a mistake only where the number is read. -/
  mayOverflow : Bool

/-- JSON counts the items of an array and has a null, and all its numbers are in range. -/
def SourceFormat.json : SourceFormat := ⟨false, false, false⟩

/-- TOML does not count, has no null, and leaves the range of a number to its reader. -/
def SourceFormat.toml : SourceFormat := ⟨true, true, true⟩

/-- Reads a value that no field takes. -/
def SourceFormat.ignore (format : SourceFormat) (value : Json) : Except Mistake Unit :=
  if format.mayOverflow && !value.hasFiniteNumbers then .error .overflow else .ok ()

/-! ## Scalars and containers -/

def readString : Json → Except Mistake String
  | .string s => .ok s
  | found => .error (.wrongType found .string)

/-- A text or null. -/
def readOptionalString : Json → Except Mistake (Option String)
  | .null => .ok none
  | found => some <$> readString found

def readBool : Json → Except Mistake Bool
  | .bool b => .ok b
  | found => .error (.wrongType found .boolean)

def readMap : Json → Except Mistake (Entries String Json)
  | .object members => .ok members
  | found => .error (.wrongType found .map)

def readSequence : Json → Except Mistake (List Json)
  | .array items => .ok items
  | found => .error (.wrongType found .sequence)

def readStrings (value : Json) : Except Mistake (List String) :=
  readSequence value >>= List.mapM readString

/-- An object whose values are all read alike. -/
def readMapOf {α : Type} (read : Json → Except Mistake α) (value : Json) :
    Except Mistake (Entries String α) := do
  let members ← readMap value
  members.mapM fun (key, value) => do return (key, ← read value)

/-! ## Variants -/

def variantOfName {α : Type} (variants : List (String × α)) (text : String) : Except Mistake α :=
  match Entries.get? variants text with
  | some variant => .ok variant
  | none => .error (.unknownVariant text (Entries.keys variants))

/-- The empty content of a variant. -/
def readNoContent (format : SourceFormat) (found : Json) : Except Mistake Unit :=
  match format.emptyContentIsContainer, found with
  | false, .null => .ok ()
  | true, .array [] => .ok ()
  | true, .object [] => .ok ()
  | _, _ => .error (.wrongType found .unit)

/-- A variant without content: its name, or an object whose one key is its name. -/
def readVariant {α : Type} (format : SourceFormat) (variants : List (String × α)) :
    Json → Except Mistake α
  | .string text => variantOfName variants text
  | .object [(text, content)] => do
    let variant ← variantOfName variants text
    readNoContent format content
    return variant
  | .object _ => .error .notOneKey
  | found => .error (.wrongType found .stringOrMap)

/-! ## Records -/

/-- A field: its name, and its other spellings. -/
structure Field where
  name : String
  aliases : List String

def Field.named (name : String) : Field := ⟨name, []⟩

/-- The name of a record in messages, and its fields in order. -/
structure RecordForm where
  label : String
  fields : List Field

/-- How a record was written. -/
inductive RecordStyle where
  | members
  | items

namespace RecordForm

variable {α σ : Type}

def names (form : RecordForm) : List String := form.fields.map Field.name

/-- The field that a key spells. -/
def fieldOfKey? (form : RecordForm) (key : String) : Option String :=
  (form.fields.find? fun field => field.name == key || field.aliases.contains key).map Field.name

/-- The mistake of leaving a field out. -/
def absence (form : RecordForm) (style : RecordStyle) (name : String) : Mistake :=
  match style with
  | .members => .missingField name
  | .items => .missingItem (form.names.idxOf name) form.label form.fields.length

def require (form : RecordForm) (style : RecordStyle) (name : String) (value? : Option α) :
    Except Mistake α :=
  match value? with
  | some value => .ok value
  | none => .error (form.absence style name)

/-- Reads the members of an object into a draft; `seen` holds the fields read so far. -/
def readMembers (form : RecordForm) (format : SourceFormat)
    (step : String → Json → σ → Except Mistake σ) :
    Entries String Json → List String → σ → Except Mistake σ
  | [], _, draft => .ok draft
  | (key, value) :: rest, seen, draft =>
    match form.fieldOfKey? key with
    | none => do
      format.ignore value
      form.readMembers format step rest seen draft
    | some name =>
      if seen.contains name then .error (.duplicateField name)
      else do
        let draft ← step name value draft
        form.readMembers format step rest (name :: seen) draft

/-- Reads the items of an array into a draft, one a field. -/
def readItems (step : String → Json → σ → Except Mistake σ) :
    List String → List Json → σ → Except Mistake σ
  | name :: names, value :: rest, draft => do
    let draft ← step name value draft
    readItems step names rest draft
  | _, _, draft => .ok draft

/-- Refuses an array that is longer than the record has fields. -/
def checkLength (form : RecordForm) (format : SourceFormat) (items : List Json) :
    Except Mistake Unit :=
  if form.fields.length < items.length && !format.allowsExtraItems then
    .error (.extraItems items.length)
  else .ok ()

def read (form : RecordForm) (format : SourceFormat)
    (step : String → Json → σ → Except Mistake σ) (finish : RecordStyle → σ → Except Mistake α)
    (start : σ) : Json → Except Mistake α
  | .object members => do
    let draft ← form.readMembers format step members [] start
    finish .members draft
  | .array items => do
    let draft ← readItems step form.names items start
    let record ← finish .items draft
    form.checkLength format items
    return record
  | found => .error (.wrongType found (.named form.label))

end RecordForm

end DescriptorSql
