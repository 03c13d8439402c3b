import DescriptorSql.CommandLine.Run

/-!
# `Main.lean` — the program

Reads the files that the arguments may lead to, runs the command on them, and prints what it
answers.
-/

set_option autoImplicit false

namespace DescriptorSql.CommandLine

/-- The system's number of the error that something is a directory. -/
def directoryErrorNumber : UInt32 := 21

/-- The text of a file, or why it cannot be read. -/
def readFile (path : String) : IO (Except FileError String) := do
  try
    match String.fromUTF8? (← IO.FS.readBinFile path) with
    | some text => return .ok text
    | none => return .error .notText
  catch error =>
    match error with
    | .noFileOrDirectory .. => return .error .missing
    | .inappropriateType _ number _ =>
      return .error (if number == directoryErrorNumber then .directory else .notDirectory)
    | error => return .error (.other (toString error))

/-- The user's own configuration: below the directory that the environment names for such files, or
below the home directory. -/
def userConfigPath : IO (Option String) := do
  let named := (← IO.getEnv "XDG_CONFIG_HOME").filter (·.startsWith "/")
  let home := (← IO.getEnv "HOME").map (· ++ "/.config")
  return (named.or home).map (· ++ "/pgcompose/config.toml")

/-- Reads the files of a request, as far as they can be read. -/
def surroundings (arguments : List String) : IO Surroundings := do
  let namedConfig ← IO.getEnv "PGCOMPOSE_CONFIG"
  let userConfig ← userConfigPath
  let paths := ((Request.ofArguments? arguments).map (·.paths namedConfig userConfig)).getD []
  let texts ← paths.eraseDups.mapM fun path => return (path, ← readFile path)
  return ⟨fun path => (Entries.get? texts path).getD (.error .missing), namedConfig, userConfig⟩

end DescriptorSql.CommandLine

open DescriptorSql.CommandLine in
/-- Runs the command that the arguments ask for. -/
def main (arguments : List String) : IO UInt32 := do
  match run (← surroundings arguments) arguments with
  | .ok text =>
    IO.println text
    return 0
  | .error failure =>
    IO.eprintln failure.message
    return failure.exitCode.toUInt32
