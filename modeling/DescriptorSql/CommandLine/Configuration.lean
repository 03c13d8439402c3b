import DescriptorSql.CommandLine.FileTree
import DescriptorSql.Settings

/-!
# `CommandLine/Configuration.lean` — where settings come from

Settings come from the first of these: the file that the arguments name, the file that the
environment names, the file in the working directory, the user's own file. The first two have to be
there; if none of the others is, the settings are the defaults.
-/

set_option autoImplicit false

namespace DescriptorSql.CommandLine

/-- Why there are no settings. -/
inductive SettingsError where
  | notFound (path : String)
  | unreadable (error : FileError)
  | unparsed
  | blankName (blank : BlankName)
  deriving DecidableEq, Repr

/-- The error in words. What is wrong with a text that cannot be read as settings is not said. -/
def SettingsError.message : SettingsError → String
  | notFound path => "Config file not found: " ++ path
  | unreadable error => "Failed to read config file: " ++ error.message
  | unparsed => "Failed to parse config file"
  | blankName blank => blank.message

/-- What a command finds around it. -/
structure Surroundings where
  files : Files
  /-- The configuration that the environment names. -/
  namedConfig : Option String
  /-- Where the user's own configuration would be. -/
  userConfig : Option String

/-- The file of the configuration in the working directory. -/
def localConfig : String := "pgcompose.toml"

def settingsOfText (text : String) : Except SettingsError Settings :=
  match Settings.ofToml? text with
  | none => .error .unparsed
  | some settings =>
    match settings.validate with
    | .ok () => .ok settings
    | .error blank => .error (.blankName blank)

def settingsOfFile (files : Files) (path : String) : Except SettingsError Settings :=
  match files path with
  | .ok text => settingsOfText text
  | .error error => .error (if error.isAbsence then .notFound path else .unreadable error)

namespace Surroundings

/-- The configurations that are used if they are there, the preferred one first. -/
def customConfigs (around : Surroundings) : List String :=
  localConfig :: around.userConfig.toList

/-- The configuration to use, if the arguments name one or not. -/
def configPath? (around : Surroundings) (config : Option String) : Option String :=
  (config.or around.namedConfig).or (around.customConfigs.find? around.files.has)

def settings (around : Surroundings) (config : Option String) : Except SettingsError Settings :=
  match around.configPath? config with
  | some path => settingsOfFile around.files path
  | none => .ok {}

end Surroundings

end DescriptorSql.CommandLine
