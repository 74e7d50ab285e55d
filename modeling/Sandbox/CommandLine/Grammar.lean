/-!
What may stand on the command line.

There are two levels: the options of the program and the name of a command, and
then the options of that command. The options of the program may also stand among
those of a command.
-/

namespace Sandbox.CommandLine

/-- What an argument takes. -/
inductive Takes where
  /-- Nothing: the argument is a flag. -/
  | nothing
  /-- Any text. -/
  | text
  /-- A path, which is a text that is not empty. -/
  | path
  /-- A number of 32 bits. -/
  | number
  deriving DecidableEq, Repr

/-- An argument that can be given. -/
structure Argument where
  name : String
  takes : Takes
  deriving DecidableEq, Repr

/-- What may stand on one level. -/
structure Level where
  /-- The arguments that are given by name. -/
  options : List Argument
  /-- The argument that is given without its name. -/
  positional : Option Argument := none
  /-- The names of the commands that lead to the next level. -/
  commands : List String := []
  /-- The version can be asked for. -/
  hasVersion : Bool := false

/-- Why a command line is not carried out. -/
inductive Usage where
  /-- Help was asked for. -/
  | help
  /-- The version was asked for. -/
  | version
  /-- Nothing was given. -/
  | nothingGiven
  /-- There are options but no command. -/
  | noCommand
  /-- There is no such command. -/
  | unknownCommand
  /-- There is no such argument. -/
  | unknownArgument
  /-- An argument that has to be given is missing. -/
  | missingArgument
  /-- A value is missing, or is empty where it must not be. -/
  | missingValue
  /-- A value is no number of 32 bits. -/
  | notNumber
  /-- A flag has a value. -/
  | surplusValue
  /-- An argument is given twice. -/
  | repeated
  deriving DecidableEq, Repr

/-- The exit code: asking for something is no failure. -/
def Usage.exitCode : Usage → Nat
  | help | version => 0
  | _ => 2

/-- The text that explains why a command line is not carried out. -/
def Usage.message : Usage → String
  | help =>
    "appcell prepares instances of applications.\n\n" ++
    "Commands: prepare, generate, teardown, parse-memory, help\n" ++
    "Options: --config PATH, --json-logs, --help, --version"
  | version => "appcell 0.1.0"
  | nothingGiven | noCommand => "error: a command is needed; see --help"
  | unknownCommand => "error: there is no such command"
  | unknownArgument => "error: there is no such argument"
  | missingArgument => "error: an argument is missing"
  | missingValue => "error: a value is missing"
  | notNumber => "error: a value is no number of 32 bits"
  | surplusValue => "error: a flag takes no value"
  | repeated => "error: an argument is given twice"

/-! ### The levels -/

/-- The file with the configuration. -/
def config : Argument :=
  ⟨"config", .path⟩

/-- The options of the program. -/
def programOptions : List Argument :=
  [config, ⟨"json-logs", .nothing⟩]

/-- The argument that describes the packages. -/
def manifest : Argument :=
  ⟨"manifest", .path⟩

/-- The argument that names the instance. -/
def instanceId : Argument :=
  ⟨"instance-id", .text⟩

/-- The arguments that describe an application. -/
def applicationOptions : List Argument :=
  [⟨"app-id", .text⟩, instanceId, ⟨"uid", .number⟩, ⟨"gid", .number⟩, ⟨"display-socket", .path⟩,
    ⟨"storage", .path⟩]

/-- The commands. -/
inductive Verb where
  | prepare
  | generate
  | teardown
  | parseMemory
  deriving DecidableEq, Repr

namespace Verb

/-- The name of a command. -/
def name : Verb → String
  | prepare => "prepare"
  | generate => "generate"
  | teardown => "teardown"
  | parseMemory => "parse-memory"

/-- All commands. -/
def all : List Verb :=
  [prepare, generate, teardown, parseMemory]

/-- The command with a name. -/
def ofName? (name : String) : Option Verb :=
  all.find? (·.name = name)

/-- What may follow a command. -/
def level : Verb → Level
  | prepare => { options := programOptions ++ manifest :: applicationOptions }
  | generate => { options := programOptions ++ manifest :: ⟨"dry-run", .nothing⟩ :: applicationOptions }
  | teardown => { options := programOptions ++ [instanceId] }
  | parseMemory => { options := programOptions, positional := some ⟨"text", .text⟩ }

end Verb

/-- The name that asks for help in place of a command. -/
def helpName : String := "help"

/-- What may stand in front of a command. -/
def programLevel : Level where
  options := programOptions
  commands := Verb.all.map Verb.name ++ [helpName]
  hasVersion := true

end Sandbox.CommandLine
