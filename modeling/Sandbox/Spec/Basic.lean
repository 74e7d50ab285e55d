import Sandbox.Host.Basic
import Sandbox.Spec.Fragment
import Sandbox.Spec.Section
import Sandbox.Json.Pointer

/-!
Specifications under construction.

A specification begins as a template and grows by steps, each of which adds to one
section. A step yields its outcome and the specification after it. It fails where
it meets a section of the wrong shape.

The file with a specification is written under another name next to its place and then
moved there, so whoever reads the place finds the old specification or the new one, whole.
-/

namespace Sandbox

/-- A specification: the members of its document. -/
structure Spec where
  members : List (String × Json)
  deriving DecidableEq, Repr

namespace Spec

/-- The specification that a template is, if it is an object. -/
def ofTemplate : Json → Except ConfigError Spec
  | .obj ms => .ok ⟨ms⟩
  | j => .error (.templateShape j.kind)

/-- The document of a specification. -/
def toJson (s : Spec) : Json :=
  .obj s.members

/-- The part of a specification that a pointer leads to. -/
def pointer? (s : Spec) (p : String) : Option Json :=
  s.toJson.pointer? p

/-! ### Changes -/

/-- Changes the members of a specification. -/
def update (s : Spec)
    (f : List (String × Json) → Except ConfigError Unit × List (String × Json)) :
    Except ConfigError Unit × Spec :=
  let (outcome, ms) := f s.members
  (outcome, ⟨ms⟩)

/-- Appends an item to the list section at a path. -/
def append (s : Spec) (path : List String) (item : Json) : Except ConfigError Unit × Spec :=
  s.update (Section.updateList path (· ++ [item]))

/-- Puts a value into the object section at a path. -/
def put (s : Spec) (path : List String) (name : String) (value : Json) :
    Except ConfigError Unit × Spec :=
  s.update (Section.updateObject path (Members.set name value))

/-- Says why the list section at a path cannot be changed, if it cannot. -/
def checkList (s : Spec) (path : List String) : Except ConfigError Unit :=
  Section.checkList path s.members

/-- Goes on with a specification unless it has failed. -/
def andThen : Except ConfigError Unit × Spec → (Spec → Except ConfigError Unit × Spec) →
    Except ConfigError Unit × Spec
  | (.ok (), s), next => next s
  | (.error e, s), _ => (.error e, s)

/-! ### The process -/

/-- Appends to the command. -/
def pushArg (s : Spec) (arg : String) : Except ConfigError Unit × Spec :=
  s.append ["process", "args"] (.str arg)

/-- Appends an entry to the environment. -/
def pushEnvEntry (s : Spec) (entry : String) : Except ConfigError Unit × Spec :=
  s.append ["process", "env"] (.str entry)

/-- Appends a variable to the environment. -/
def pushEnv (s : Spec) (key value : String) : Except ConfigError Unit × Spec :=
  s.pushEnvEntry (key ++ "=" ++ value)

/-- Sets the user of the process. -/
def setUser (s : Spec) (user : User) : Except ConfigError Unit × Spec :=
  s.put ["process"] "user" user.toJson

/-- Sets the directory that the process works in. -/
def setCwd (s : Spec) (cwd : String) : Except ConfigError Unit × Spec :=
  s.put ["process"] "cwd" (.str cwd)

/-! ### Capabilities -/

/-- The list with a text at its end, unless it holds the text. -/
def pushUnique (name : String) (l : List Json) : List Json :=
  if l.any (·.str? = some name) then l else l ++ [.str name]

/-- The value with a text at its end, if it is a list. -/
def pushUniqueInto (name : String) : Json → Json
  | .arr l => .arr (pushUnique name l)
  | j => j

/-- Adds a capability to every set that the process declares. -/
def pushIntoSets (name : String) (ms : List (String × Json)) : List (String × Json) :=
  match Members.get? "process" ms with
  | some (.obj process) =>
    match Members.get? "capabilities" process with
    | some (.obj sets) =>
      let sets := sets.map fun (k, j) => (k, pushUniqueInto name j)
      Members.set "process" (.obj (Members.set "capabilities" (.obj sets) process)) ms
    | _ => ms
  | _ => ms

/-- Adds a capability to the instance and to every set that the process declares. -/
def addCapability (s : Spec) (name : String) : Except ConfigError Unit × Spec :=
  andThen (s.update (Section.updateList ["linux", "capabilities"] (pushUnique name))) fun s =>
    (.ok (), ⟨pushIntoSets name s.members⟩)

/-! ### The instance -/

/-- Adds a device node and the rule that allows its use. Neither is added unless
both lists can be changed. -/
def addDevice (s : Spec) (d : Device) : Except ConfigError Unit × Spec :=
  andThen (s.checkList ["linux", "devices"], s) fun s =>
  andThen (s.checkList ["linux", "resources", "devices"], s) fun s =>
  andThen (s.append ["linux", "devices"] (DeviceEntry.ofDevice d).toJson) fun s =>
  s.append ["linux", "resources", "devices"] (DeviceRule.ofDevice d).toJson

/-- Adds a mapping of users. -/
def addUidMapping (s : Spec) (m : IdMapping) : Except ConfigError Unit × Spec :=
  s.append ["linux", "uidMappings"] m.toJson

/-- Adds a mapping of groups. -/
def addGidMapping (s : Spec) (m : IdMapping) : Except ConfigError Unit × Spec :=
  s.append ["linux", "gidMappings"] m.toJson

/-- Adds a mount. -/
def addMount (s : Spec) (m : Mount) : Except ConfigError Unit × Spec :=
  s.append ["mounts"] m.toJson

/-- Adds a hook at a stage. -/
def addHook (s : Spec) (stage : String) (h : Hook) : Except ConfigError Unit × Spec :=
  s.append ["hooks", stage] h.toJson

/-- Sets the host name. -/
def setHostname (s : Spec) (hostname : String) : Spec :=
  ⟨Members.set "hostname" (.str hostname) s.members⟩

/-- Sets the memory limit. -/
def setMemoryLimit (s : Spec) (bytes : UInt64) : Except ConfigError Unit × Spec :=
  s.put ["linux", "resources", "memory"] "limit" (.nat bytes.toNat)

/-! ### Steps -/

/-- A step in the construction of a specification. -/
inductive Step where
  | pushArg (arg : String)
  | pushEnv (key value : String)
  | pushEnvEntry (entry : String)
  | addCapability (name : String)
  | addDevice (device : Device)
  | addUidMapping (mapping : IdMapping)
  | addGidMapping (mapping : IdMapping)
  | addMount (mount : Mount)
  | addHook (stage : String) (hook : Hook)
  | setUser (user : User)
  | setCwd (cwd : String)
  | setHostname (hostname : String)
  | setMemoryLimit (bytes : UInt64)
  deriving DecidableEq, Repr

/-- Runs a step. -/
def Step.apply (s : Spec) : Step → Except ConfigError Unit × Spec
  | pushArg arg => s.pushArg arg
  | pushEnv key value => s.pushEnv key value
  | pushEnvEntry entry => s.pushEnvEntry entry
  | addCapability name => s.addCapability name
  | addDevice d => s.addDevice d
  | addUidMapping m => s.addUidMapping m
  | addGidMapping m => s.addGidMapping m
  | addMount m => s.addMount m
  | addHook stage h => s.addHook stage h
  | setUser u => s.setUser u
  | setCwd cwd => s.setCwd cwd
  | setHostname hostname => (.ok (), s.setHostname hostname)
  | setMemoryLimit bytes => s.setMemoryLimit bytes

/-- Runs steps one after the other up to the first that fails. What was done before
it stays. -/
def run : Spec → List Step → Except ConfigError Unit × Spec
  | s, [] => (.ok (), s)
  | s, step :: steps => andThen (step.apply s) fun s => run s steps

/-- The specification after steps that all succeed. -/
def runAll (s : Spec) (steps : List Step) : Except ConfigError Spec :=
  match s.run steps with
  | (.ok (), s) => .ok s
  | (.error e, _) => .error e

/-- Runs steps one after the other, whether they fail or not. Yields their outcomes
and the specification after the last. -/
def runEach : Spec → List Step → List (Except ConfigError Unit) × Spec
  | s, [] => ([], s)
  | s, step :: steps =>
    let (outcome, s) := step.apply s
    let (outcomes, s) := runEach s steps
    (outcome :: outcomes, s)

/-! ### The file -/

/-- The permission bits of the file: all may read, the owner may write. -/
def fileMode : Nat := 0o644

/-- Writes the specification to a path and hands it to an owner. What was written is
removed if it cannot be moved there. An owner that cannot be set is no failure. -/
def save (s : Spec) (h : Host) (p : Path) (uid gid : UInt32) : Except Error Unit × Host :=
  let dir := p.parent?.getD (.ofString ".")
  match h.makeTemporary dir (Utf8.encode s.toJson.pretty.toList) with
  | .error e => (.error (.io dir e), h)
  | .ok (file, h) =>
    let h := h.setMode file fileMode
    match h.moveFile file p with
    | .error e => (.error (.io p e), h.removeEntry file)
    | .ok h => (.ok (), h.tryChangeOwner p uid gid)

end Spec

end Sandbox
