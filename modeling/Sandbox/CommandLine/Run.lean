import Sandbox.CommandLine.Command
import Sandbox.Generate.Instance
import Sandbox.Memory.Amount

/-!
Carrying commands out.

A command answers with the lines that it prints, or fails with a cause and what it
was doing.
-/

namespace Sandbox.CommandLine

/-- Why a command fails. -/
inductive Cause where
  | error (e : Error)
  | stage (f : StageFailure)
  deriving DecidableEq, Repr

/-- The text of a cause. `mountCause` words the causes of failed mounts. -/
def Cause.messageWith (mountCause : IoFailure → String) : Cause → String
  | error e => e.messageWith mountCause
  | stage f => f.messageWith mountCause

/-- The failure of a command: what it was doing, the widest view first, and the
cause. -/
structure Failure where
  doing : List String
  cause : Cause
  deriving DecidableEq, Repr

/-- The texts of a failure, the cause last. -/
def Failure.chain (mountCause : IoFailure → String) (f : Failure) : List String :=
  f.doing ++ [f.cause.messageWith mountCause]

/-- A result that fails without further words. -/
def plain (x : Except Error α) : Except Failure α :=
  x.mapError fun e => ⟨[], .error e⟩

/-- A result that fails while doing something. -/
def during (doing : String) (x : Except Error α) : Except Failure α :=
  x.mapError fun e => ⟨[doing], .error e⟩

/-- A result that fails at a stage. -/
def atStage (x : Except StageFailure α) : Except Failure α :=
  x.mapError fun f => ⟨[], .stage f⟩

/-- The configuration: the file that was named, or the system's, or none. -/
def loadConfig (h : Host) (named : Option Path) : Except Failure Config :=
  let load (p : Path) := during ("loading " ++ p.display) (Config.load h p)
  match named with
  | some p => load p
  | none => if h.leadsSomewhere Config.systemFile then load Config.systemFile else .ok .default

/-- The application that arguments describe. Numbers that are not given are those
of the service user. -/
def ApplicationArguments.toApplication (a : ApplicationArguments) (c : Config) (accounts : Accounts) :
    Except Failure Application := do
  let owner ←
    match a.uid, a.gid with
    | some uid, some gid => pure ⟨uid, gid⟩
    | uid, gid => do
      let service ← during "no --uid/--gid given and the service account is unavailable"
        (accounts.user c.serviceUser)
      pure (Owner.mk (uid.getD service.uid) (gid.getD service.gid))
  let id ← plain ((InstanceId.ofString a.instanceId).mapError .config)
  return ⟨a.appId, owner.uid, owner.gid, id, a.displaySocket, a.storage⟩

/-- What is printed about a memory limit. -/
def describeLimit (text : String) : String :=
  let n := Memory.parseLimit text
  if n = 0 then "0 (no limit)" else toString n.toNat ++ " (" ++ Memory.showAmount n ++ ")"

/-- The line printed for a specification that has been generated, or the whole
specification if it is only to be shown. -/
def runGenerate (g : Generator) (h : Host) (manifest : Path) (dryRun : Bool) (a : Application) :
    Except Failure String × Host :=
  match during ("loading manifest " ++ manifest.display) (Package.loadManifest h manifest) with
  | .error e => (.error e, h)
  | .ok packages =>
    if dryRun then (atStage ((g.build h a packages).map fun s => s.toJson.pretty), h)
    else
      let (result, h) := g.generate h a packages
      (atStage (result.map fun r => r.path.display), h)

/-- The line printed for an instance that has been prepared. -/
def runPrepare (g : Generator) (h : Host) (manifest : Path) (a : Application) :
    Except Failure String × Host :=
  let (result, h) := g.prepare h a manifest
  (atStage (result.map fun _ => (g.config.instanceDir a.instanceId).display), h)

/-- Unmounts the root of an instance. -/
def runTeardown (g : Generator) (h : Host) (instanceId : String) : Except Failure Host := do
  let id ← plain ((InstanceId.ofString instanceId).mapError .config)
  atStage (g.teardown h id)

/-- Carries a command out. The answer is the line to print, if there is one. -/
def Command.run (command : Command) (g : Generator) (h : Host) : Except Failure (Option String) × Host :=
  let withApplication (a : ApplicationArguments) (act : Application → Except Failure String × Host) :=
    match a.toApplication g.config g.accounts with
    | .error e => (.error e, h)
    | .ok app =>
      let (result, h) := act app
      (result.map some, h)
  match command with
  | .prepare manifest a => withApplication a (runPrepare g h manifest)
  | .generate manifest dryRun a => withApplication a (runGenerate g h manifest dryRun)
  | .teardown id =>
    match runTeardown g h id with
    | .error e => (.error e, h)
    | .ok h => (.ok none, h)
  | .parseMemory text => (.ok (some (describeLimit text)), h)

/-- Carries out what a command line asks for. -/
def Invocation.run (i : Invocation) (h : Host) (accounts : Accounts) :
    Except Failure (Option String) × Host :=
  match loadConfig h i.config with
  | .error e => (.error e, h)
  | .ok config => i.command.run ⟨config, accounts⟩ h

end Sandbox.CommandLine
