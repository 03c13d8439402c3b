import DescriptorSql.Binding.Bind
import DescriptorSql.CommandLine.Arguments
import DescriptorSql.CommandLine.Configuration
import DescriptorSql.Json.Reader
import DescriptorSql.Statement.Operation
import DescriptorSql.Statement.ParamsForm

/-!
# `CommandLine/Run.lean` — running a command

A command reads the settings, then its file, and answers with what is printed. A descriptor's own
relations are laid over the configured ones. A statement is finished as the settings say before its
parameters are bound, so binding sees the text that is printed.
-/

set_option autoImplicit false

namespace DescriptorSql.CommandLine

/-- Why a command fails. -/
inductive Failure where
  | usage
  | settings (error : SettingsError)
  | unreadable (path : String) (error : FileError)
  | notJson (path : String)
  | notObject (path : String)
  | compilation (error : QueryError)
  | binding (error : QueryError)

namespace Failure

/-- The failure in words. What is wrong with a text that is no JSON is not said. -/
def message : Failure → String
  | usage => CommandLine.usage
  | settings error => "Configuration error: " ++ error.message
  | unreadable path error => "Error reading file '" ++ path ++ "': " ++ error.message
  | notJson path => "Error parsing JSON in '" ++ path ++ "'"
  | notObject path => "Error: '" ++ path ++ "' must contain a JSON object"
  | compilation error => "Compilation error: " ++ error.message
  | binding error => "Binding error: " ++ error.message

def exitCode : Failure → Nat
  | usage => 2
  | _ => 1

end Failure

/-- A result whose error is a failure of a certain kind. -/
def failing {ε α : Type} (failure : ε → Failure) : Except ε α → Except Failure α
  | .ok value => .ok value
  | .error error => .error (failure error)

/-! ## Files -/

def readText (files : Files) (path : String) : Except Failure String :=
  failing (.unreadable path) (files path)

def readJson (files : Files) (path : String) : Except Failure Json := do
  match Json.read? Json.greatestDepth (← readText files path) with
  | some value => return value
  | none => throw (.notJson path)

def readValues (files : Files) (path : String) : Except Failure (Entries String Json) := do
  match ← readJson files path with
  | .object members => return members
  | _ => throw (.notObject path)

/-! ## Statements -/

/-- The statement of an operation, with the configured relations below the descriptor's own. -/
def Operation.compile (settings : Settings) (descriptor : Json) :
    Operation → Except QueryError String
  | .find => do
    let params ← asInvalid (FindParams.ofJson? descriptor)
    { params with relations := settings.relationsWith params.relations }.find
  | .insert false => do
    let params ← asInvalid (InsertParams.oneOfJson? descriptor)
    { params with relations := settings.relationsWith params.relations }.insertOne
  | .insert true => do
    let params ← asInvalid (InsertParams.manyOfJson? descriptor)
    { params with relations := settings.relationsWith params.relations }.insertMany
  | .update => do
    let params ← asInvalid (UpdateParams.ofJson? descriptor)
    { params with relations := settings.relationsWith params.relations }.update
  | .delete => do
    let params ← asInvalid (DeleteParams.ofJson? descriptor)
    { params with relations := settings.relationsWith params.relations }.delete

/-- A statement as it is printed, with its parameters bound. -/
def bindFinished (output : OutputSettings) (values : Entries String Json) (sql : String) :
    Except QueryError Binding.BoundQuery :=
  Binding.bind values (output.finish sql)

/-- The statement in a file's text, which may end in blanks. -/
def statementOfText (text : String) : String := Text.trimEnd text

def boundText (bound : Binding.BoundQuery) : String :=
  (Json.object [("sql", .string bound.sql), ("values", .array bound.values)]).pretty

/-- Binds a statement with the values in a file. -/
def bindWithFile (files : Files) (output : OutputSettings) (sql path : String) :
    Except Failure String := do
  let values ← readValues files path
  let bound ← failing .binding (bindFinished output values sql)
  return boundText bound

/-! ## Commands -/

def Command.run (files : Files) (settings : Settings) : Command → Except Failure String
  | .compile operation file values? => do
    let descriptor ← readJson files file
    let sql ← failing .compilation (operation.compile settings descriptor)
    match values? with
    | some path => bindWithFile files settings.output sql path
    | none => return settings.output.finish sql
  | .bind file path => do
    let text ← readText files file
    bindWithFile files settings.output (statementOfText text) path

/-- The name and the number of this version. -/
def versionText : String := "pgcompose 0.1.0"

def Request.run (around : Surroundings) : Request → Except Failure String
  | .version => .ok versionText
  | .execute config command => do
    let settings ← failing .settings (around.settings config)
    command.run around.files settings

/-- The files that a request may read. -/
def Request.paths (namedConfig userConfig : Option String) : Request → List String
  | .version => []
  | .execute config command =>
    config.toList ++ namedConfig.toList ++ [localConfig] ++ userConfig.toList ++
      match command with
      | .compile _ file values => file :: values.toList
      | .bind file values => [file, values]

/-- What a program with these arguments prints, without the line end after it. -/
def run (around : Surroundings) (arguments : List String) : Except Failure String :=
  match Request.ofArguments? arguments with
  | some request => request.run around
  | none => .error .usage

end DescriptorSql.CommandLine
