import Sandbox.CommandLine.Reader
import Sandbox.Path

/-!
Commands with their arguments.
-/

namespace Sandbox.CommandLine

/-- What is said of an application. -/
structure ApplicationArguments where
  appId : String
  instanceId : String
  uid : Option UInt32
  gid : Option UInt32
  displaySocket : Path
  storage : Path
  deriving DecidableEq, Repr

/-- A command. -/
inductive Command where
  /-- Mount the root of an instance and write its specification. -/
  | prepare (manifest : Path) (app : ApplicationArguments)
  /-- Write the specification of an instance, or only show it. -/
  | generate (manifest : Path) (dryRun : Bool) (app : ApplicationArguments)
  /-- Unmount the root of an instance. -/
  | teardown (instanceId : String)
  /-- Show what a memory limit means. -/
  | parseMemory (text : String)
  deriving DecidableEq, Repr

/-- A command line as it is carried out. -/
structure Invocation where
  /-- The configuration file that was named. -/
  config : Option Path
  command : Command
  deriving DecidableEq, Repr

namespace Values

/-- The text of an argument that has been given. -/
def text (vs : Values) (name : String) : Except Usage String :=
  match vs.lookup name with
  | some s => .ok s
  | none => .error .missingArgument

/-- The path of an argument that has been given. -/
def path (vs : Values) (name : String) : Except Usage Path :=
  (vs.text name).map .ofString

/-- The number of an argument. -/
def number (vs : Values) (name : String) : Option UInt32 :=
  (vs.lookup name).bind number?

/-- What was said of an application. -/
def application (vs : Values) : Except Usage ApplicationArguments := do
  return {
    appId := ← vs.text "app-id"
    instanceId := ← vs.text "instance-id"
    uid := vs.number "uid"
    gid := vs.number "gid"
    displaySocket := ← vs.path "display-socket"
    storage := ← vs.path "storage" }

/-- The command with the arguments that were given. -/
def command (vs : Values) : Verb → Except Usage Command
  | .prepare => do return .prepare (← vs.path "manifest") (← vs.application)
  | .generate => do
    return .generate (← vs.path "manifest") (vs.lookup "dry-run").isSome (← vs.application)
  | .teardown => do return .teardown (← vs.text "instance-id")
  | .parseMemory => do return .parseMemory (← vs.text "text")

end Values

/-- Help about a command: every further word has to be the name of a command that
can stand there, and only the first can. -/
def askHelp : List String → Usage
  | [] => .help
  | [name] => if programLevel.commands.contains name then .help else .unknownCommand
  | _ => .unknownCommand

/-- Reads a command line. `fallback` names the configuration file where the command
line does not. -/
def read (fallback : Option String) (words : List String) : Except Usage Invocation := do
  let (p, rest) ← programLevel.readWords {} words
  match rest with
  | none =>
    let given ← Level.finish p fallback
    .error (if given = [] ∧ fallback = none then .nothingGiven else .noCommand)
  | some (name, words) =>
    match Verb.ofName? name with
    | none => .error (askHelp words)
    | some verb =>
      let (q, _) ← verb.level.readWords {} words
      let given ← Level.finish q fallback
      let command ← Values.command given verb
      let outer ← Level.finish p fallback
      let config := given.lookup config.name <|> outer.lookup config.name <|> fallback
      return ⟨config.map .ofString, command⟩

end Sandbox.CommandLine
