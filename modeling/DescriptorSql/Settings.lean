import DescriptorSql.Descriptor.RelationForm
import DescriptorSql.Text.Blank
import DescriptorSql.Toml.Reader

/-!
# `Settings.lean` — configured relations and output

Settings carry a catalog that every command starts from, and say whether statements end in a
semicolon. Settings are valid when no name of a relation is blank.
-/

set_option autoImplicit false

namespace DescriptorSql

/-- How statements are printed. -/
structure OutputSettings where
  semicolon : Bool := false
  deriving DecidableEq, Repr

structure Settings where
  relations : Catalog := []
  output : OutputSettings := {}

/-- A name in a relation that is blank. -/
structure BlankName where
  relation : String
  part : String
  deriving DecidableEq, Repr

def BlankName.message (blank : BlankName) : String :=
  "Invalid configuration: relation '" ++ blank.relation ++ "' has an empty " ++ blank.part

/-- The statement as it is printed. -/
def OutputSettings.finish (output : OutputSettings) (sql : String) : String :=
  if output.semicolon && sql.toList.getLast? != some ';' then sql ++ ";" else sql

/-- The names of a relation, each with the part that it is. -/
def Relation.namedParts (relation : Relation) : List (String × String) :=
  [("table", relation.table), ("field", relation.field),
    ("referenceTable", relation.referenceTable), ("referenceField", relation.referenceField)] ++
  match relation.junction with
  | some junction =>
    [("junction.table", junction.table), ("junction.field", junction.field),
      ("junction.referenceField", junction.referenceField)]
  | none => []

namespace Settings

/-- The configured catalog with other relations laid over it. -/
def relationsWith (settings : Settings) (overrides : Catalog) : Catalog :=
  Entries.merge settings.relations overrides

/-- The first blank name of a catalog. -/
def blankName? (relations : Catalog) : Option BlankName :=
  relations.findSome? fun (name, relation) =>
    (relation.namedParts.find? fun (_, text) => Text.isBlankText text).map fun (part, _) =>
      ⟨name, part⟩

/-- Refuses settings with a blank name. -/
def validate (settings : Settings) : Except BlankName Unit :=
  match blankName? settings.relations with
  | some blank => .error blank
  | none => .ok ()

/-! ## Reading -/

def outputForm : RecordForm := ⟨"struct OutputSettings", [.named "semicolon"]⟩

def storeOutput (name : String) (value : Json) (output : OutputSettings) :
    Except Mistake OutputSettings := do
  match name with
  | "semicolon" => return { output with semicolon := ← readBool value }
  | _ => return output

def form : RecordForm := ⟨"struct Settings", ["relations", "output"].map .named⟩

def store (format : SourceFormat) (name : String) (value : Json) (settings : Settings) :
    Except Mistake Settings := do
  match name with
  | "relations" => return { settings with relations := ← Catalog.ofJson? format value }
  | "output" =>
    let output ← outputForm.read format storeOutput (fun _ output => .ok output) {} value
    return { settings with output := output }
  | _ => return settings

/-- Reads settings, without validating them. -/
def ofJson? (format : SourceFormat) : Json → Except Mistake Settings :=
  form.read format (store format) (fun _ settings => .ok settings) {}

/-- Reads settings from TOML text, without validating them. -/
def ofToml? (text : String) : Option Settings := do
  let document ← Toml.read? text
  (ofJson? .toml document).toOption

end Settings

end DescriptorSql
