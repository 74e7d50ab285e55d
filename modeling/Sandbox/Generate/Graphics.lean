import Sandbox.Accounts
import Sandbox.Spec.Basic

/-!
Graphics: the device nodes, groups and files that a device's graphics need.

They are the same for every instance. What cannot be found is left out; what is
found is added as a whole or, if a section of the specification has the wrong
shape, not at all.
-/

namespace Sandbox

/-- What a device's graphics need. -/
structure Graphics where
  /-- The device nodes. -/
  devNodes : List Path
  /-- The groups that may use them. -/
  groupIds : List String
  /-- Entries that should name a file and its place in an instance. -/
  files : List Json
  deriving DecidableEq, Repr

namespace Graphics

/-- The fields of what graphics need, in a document. -/
def record : Record Graphics :=
  Graphics.mk
    <$> .defaulting "devNodes" (.list .path) []
    <*> .defaulting "groupIds" (.list .string) []
    <*> .defaulting "files" (.list .any) []

/-- The field of a descriptor that holds what graphics need. -/
def descriptorRecord : Record Graphics :=
  .required "vendorGpuSupport" (record.decoder "GraphicsDescriptor")

/-- What graphics need, in a descriptor. -/
def decoder : Decoder Graphics :=
  descriptorRecord.decoder "DescriptorFile"

/-- What graphics need, according to the descriptor that a path leads to. -/
def load (h : Host) (p : Path) : Except Error Graphics :=
  h.loadDecoded p decoder

/-- The text of a member, unless it is empty. -/
def filled? (entry : Json) (name : String) : Option String :=
  ((entry.member? name).bind Json.str?).filter (· ≠ "")

/-- The mount that an entry for a file stands for. -/
def mount? (entry : Json) : Option Mount := do
  let source ← filled? entry "source"
  let destination ← filled? entry "destination"
  return .bindReadOnly source destination

/-- What of the needs was found. -/
structure Grant where
  devices : List Device
  gids : List UInt32
  mounts : List Mount
  deriving DecidableEq, Repr

/-- Finds what graphics need. -/
def grant (g : Graphics) (h : Host) (accounts : Accounts) : Grant where
  devices := g.devNodes.filterMap fun p => (h.device p).toOption
  gids := g.groupIds.filterMap fun name => (accounts.group name).toOption
  mounts := g.files.filterMap mount?

namespace Grant

/-- Says why the grant cannot be added to a specification, if it cannot. Sections
that nothing is added to do not matter. -/
def check (g : Grant) (s : Spec) : Except ConfigError Unit := do
  unless g.devices.isEmpty do
    s.checkList ["linux", "devices"]
    s.checkList ["linux", "resources", "devices"]
  unless g.gids.isEmpty do
    s.checkList ["linux", "gidMappings"]
  unless g.mounts.isEmpty do
    s.checkList ["mounts"]

/-- The steps that add the grant. -/
def steps (g : Grant) : List Spec.Step :=
  g.devices.map .addDevice ++ g.gids.map (fun gid => .addGidMapping (.single gid gid)) ++
    g.mounts.map .addMount

/-- Adds the grant to a specification, once it is known that all of it fits. -/
def apply (g : Grant) (s : Spec) : Except ConfigError Unit × Spec :=
  Spec.andThen (g.check s, s) (·.run g.steps)

/-- Graphics can be used: a device node was found. -/
def isUsable (g : Grant) : Bool :=
  !g.devices.isEmpty

end Grant

/-- How much was added to a specification. -/
structure Report where
  devices : Nat
  groups : Nat
  files : Nat
  deriving DecidableEq, Repr

/-- How much there is to add. -/
def Grant.report (g : Grant) : Report where
  devices := g.devices.length
  groups := g.gids.length
  files := g.mounts.length

/-- Adds what was found of the needs to a specification, and tells how much that is. -/
def apply (g : Graphics) (h : Host) (accounts : Accounts) (s : Spec) : Except ConfigError Report × Spec :=
  let grant := g.grant h accounts
  let (outcome, s) := grant.apply s
  (outcome.map fun _ => grant.report, s)

end Graphics

end Sandbox
