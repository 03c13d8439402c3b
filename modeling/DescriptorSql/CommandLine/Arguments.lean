import DescriptorSql.Text.Quoted

/-!
# `CommandLine/Arguments.lean` — what the arguments ask for

Arguments are read one after the other: a command, its file, and options anywhere between them. An
option takes its value from the next argument, or from the same one after an equals sign. The option
`--config` may stand before or after the command, and the one after it counts; beyond that nothing
may be given twice. After `--` every argument is a file. Whatever does not fit makes the arguments
unusable, which is `none` throughout.
-/

set_option autoImplicit false

namespace DescriptorSql.CommandLine

/-- What is compiled. -/
inductive Operation where
  | find
  | insert (many : Bool)
  | update
  | delete
  deriving DecidableEq, Repr

/-- A command with its files. -/
inductive Command where
  /-- Compiles a descriptor, and binds the values of a second file if there is one. -/
  | compile (operation : Operation) (file : String) (values : Option String)
  /-- Binds the values of a second file in a statement. -/
  | bind (file : String) (values : String)
  deriving DecidableEq, Repr

/-- What the arguments ask for. -/
inductive Request where
  | version
  | execute (config : Option String) (command : Command)
  deriving DecidableEq, Repr

/-! ## Single arguments -/

/-- The form of an argument. -/
inductive Argument where
  | word (text : String)
  /-- Only files follow. -/
  | escape
  /-- A name of several characters, and what follows its equals sign. -/
  | long (name : List Char) (value : Option (List Char))
  /-- A name of one character, and what follows it. -/
  | short (name : Char) (rest : List Char)

/-- The form of an argument. A single hyphen is a word. -/
def Argument.ofText (text : String) : Argument :=
  match text.toList with
  | ['-', '-'] => .escape
  | '-' :: '-' :: rest =>
    match rest.dropWhile (· != '=') with
    | [] => .long rest none
    | _ :: value => .long (rest.takeWhile (· != '=')) (some value)
  | ['-'] => .word text
  | '-' :: name :: rest => .short name rest
  | _ => .word text

/-- An option with a value. -/
inductive ValueOption where
  | config
  | params
  deriving DecidableEq, Repr

/-- The commands by name. -/
inductive CommandName where
  | find
  | insert
  | update
  | delete
  | bind
  deriving DecidableEq, Repr

def CommandName.ofText? : String → Option CommandName
  | "find" => some .find
  | "insert" => some .insert
  | "update" => some .update
  | "delete" => some .delete
  | "bind" => some .bind
  | _ => none

/-! ## Reading -/

/-- What has been read of the arguments. -/
structure Reading where
  command : Option CommandName := none
  /-- The configuration named before the command. -/
  outerConfig : Option String := none
  /-- The configuration named after the command. -/
  innerConfig : Option String := none
  file : Option String := none
  params : Option String := none
  many : Bool := false
  /-- The option whose value comes next. -/
  awaiting : Option ValueOption := none
  escaped : Bool := false

inductive Progress where
  | reading (state : Reading)
  | version

/-- A value that is written down for the first time and is not empty. -/
def firstValue? (given : Option String) (value : String) : Option (Option String) :=
  if given.isSome || value.isEmpty then none else some (some value)

namespace Reading

/-- The value of an option. -/
def setOption? (state : Reading) (option : ValueOption) (value : String) : Option Reading :=
  match option, state.command with
  | .config, none =>
    (firstValue? state.outerConfig value).map fun config =>
      { state with outerConfig := config, awaiting := none }
  | .config, some _ =>
    (firstValue? state.innerConfig value).map fun config =>
      { state with innerConfig := config, awaiting := none }
  | .params, none => none
  | .params, some _ =>
    (firstValue? state.params value).map fun params =>
      { state with params := params, awaiting := none }

/-- An option with its value, or without it if the next argument has it. -/
def option? (state : Reading) (option : ValueOption) : Option (List Char) → Option Reading
  | some value => state.setOption? option (String.ofList value)
  | none => some { state with awaiting := some option }

/-- A word: the command, and then its file. -/
def word? (state : Reading) (text : String) : Option Reading :=
  match state.command with
  | none =>
    if state.escaped then none
    else (CommandName.ofText? text).map fun command => { state with command := some command }
  | some _ => (firstValue? state.file text).map fun file => { state with file := file }

/-- The mark of several rows, which only an insert has. -/
def many? (state : Reading) : Option Reading :=
  if state.command = some .insert && !state.many then some { state with many := true } else none

def long? (state : Reading) (name : List Char) (value : Option (List Char)) : Option Progress :=
  match String.ofList name, value with
  | "config", value => (state.option? .config value).map .reading
  | "params", value =>
    if state.command.isSome then (state.option? .params value).map .reading else none
  | "many", none => state.many?.map .reading
  | "version", none => if state.command.isNone then some .version else none
  | _, _ => none

def short? (state : Reading) (name : Char) (rest : List Char) : Option Progress :=
  match state.command, name, rest with
  | some _, 'p', [] => (state.option? .params none).map .reading
  | some _, 'p', '=' :: value => (state.option? .params (some value)).map .reading
  | some _, 'p', value => (state.option? .params (some value)).map .reading
  | none, 'V', _ => some .version
  | _, _, _ => none

def next? (state : Reading) (text : String) : Option Progress :=
  if state.escaped then (state.word? text).map .reading
  else
    match state.awaiting, Argument.ofText text with
    | some option, .word value => (state.setOption? option value).map .reading
    | some _, _ => none
    | none, .word text => (state.word? text).map .reading
    | none, .escape => some (.reading { state with escaped := true })
    | none, .long name value => state.long? name value
    | none, .short name rest => state.short? name rest

/-- What has been asked for, if nothing is missing. -/
def finish? (state : Reading) : Option Request :=
  match state.awaiting, state.command, state.file with
  | none, some command, some file =>
    let config := state.innerConfig.or state.outerConfig
    match command with
    | .find => some (.execute config (.compile .find file state.params))
    | .insert => some (.execute config (.compile (.insert state.many) file state.params))
    | .update => some (.execute config (.compile .update file state.params))
    | .delete => some (.execute config (.compile .delete file state.params))
    | .bind => state.params.map fun values => .execute config (.bind file values)
  | _, _, _ => none

end Reading

/-- One argument read, unless the version was asked for. -/
def Progress.next? : Progress → String → Option Progress
  | .reading state, text => state.next? text
  | .version, _ => some .version

def Request.ofArguments? (arguments : List String) : Option Request := do
  match ← arguments.foldlM Progress.next? (.reading {}) with
  | .version => return .version
  | .reading state => state.finish?

/-- How the arguments are written. -/
def usage : String :=
  "Usage: pgcompose [--config FILE] (find | insert [--many] | update | delete) FILE " ++
    "[--params FILE]\n       pgcompose [--config FILE] bind FILE --params FILE"

end DescriptorSql.CommandLine
