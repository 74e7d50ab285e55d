import Sandbox.Device

/-!
The parts that specifications are made of, and how they stand in documents.
-/

namespace Sandbox

/-- A file system within an instance. -/
structure Mount where
  /-- Where it is found within the instance. -/
  destination : String
  /-- Its kind. -/
  type : String
  /-- What is mounted. -/
  source : String
  options : List String
  deriving DecidableEq, Repr

namespace Mount

/-- A directory or file from outside, with all that is mounted in it. -/
def bind (source destination : String) : Mount :=
  ⟨destination, "bind", source, ["rbind", "nosuid", "nodev"]⟩

/-- The same, for reading only. -/
def bindReadOnly (source destination : String) : Mount :=
  let m := bind source destination
  { m with options := m.options ++ ["ro"] }

/-- The fields of a mount in a document. -/
def record : Record Mount :=
  Mount.mk
    <$> .required "destination" Decoder.string
    <*> .required "type" Decoder.string
    <*> .required "source" Decoder.string
    <*> .required "options" (.list .string)

/-- A mount in a document. -/
def decoder : Decoder Mount :=
  record.decoder "Mount"

/-- A mount as a document. -/
def toJson (m : Mount) : Json :=
  .ofList [
    ("destination", .str m.destination),
    ("type", .str m.type),
    ("source", .str m.source),
    ("options", .strings m.options)]

end Mount

/-- A device node within an instance. -/
structure DeviceEntry where
  path : String
  type : String
  major : UInt64
  minor : UInt64
  fileMode : UInt32
  uid : UInt32
  gid : UInt32
  deriving DecidableEq, Repr

namespace DeviceEntry

/-- The node that stands for a device outside: anyone may read and write it. -/
def ofDevice (d : Device) : DeviceEntry :=
  ⟨d.path.display, d.kind.code, d.major, d.minor, 0o666, 0, 0⟩

/-- The fields of a device node in a specification. -/
def record : Record DeviceEntry :=
  DeviceEntry.mk
    <$> .required "path" Decoder.string
    <*> .required "type" Decoder.string
    <*> .required "major" Decoder.uint64
    <*> .required "minor" Decoder.uint64
    <*> .required "fileMode" Decoder.uint32
    <*> .required "uid" Decoder.uint32
    <*> .required "gid" Decoder.uint32

/-- A device node in a specification. -/
def decoder : Decoder DeviceEntry :=
  record.decoder "LinuxDevice"

/-- A device node as a document. -/
def toJson (d : DeviceEntry) : Json :=
  .ofList [
    ("path", .str d.path),
    ("type", .str d.type),
    ("major", .nat d.major.toNat),
    ("minor", .nat d.minor.toNat),
    ("fileMode", .nat d.fileMode.toNat),
    ("uid", .nat d.uid.toNat),
    ("gid", .nat d.gid.toNat)]

end DeviceEntry

/-- A rule on the use of a device. -/
structure DeviceRule where
  allow : Bool
  type : String
  major : UInt64
  minor : UInt64
  access : String
  deriving DecidableEq, Repr

namespace DeviceRule

/-- The rule that allows every use of a device. -/
def ofDevice (d : Device) : DeviceRule :=
  ⟨true, d.kind.code, d.major, d.minor, "rwm"⟩

/-- The fields of a rule in a document. -/
def record : Record DeviceRule :=
  DeviceRule.mk
    <$> .required "allow" Decoder.bool
    <*> .required "type" Decoder.string
    <*> .required "major" Decoder.uint64
    <*> .required "minor" Decoder.uint64
    <*> .required "access" Decoder.string

/-- A rule in a document. -/
def decoder : Decoder DeviceRule :=
  record.decoder "DeviceRule"

/-- A rule as a document. -/
def toJson (r : DeviceRule) : Json :=
  .ofList [
    ("allow", .bool r.allow),
    ("type", .str r.type),
    ("major", .nat r.major.toNat),
    ("minor", .nat r.minor.toNat),
    ("access", .str r.access)]

end DeviceRule

/-- Numbers of users or groups within an instance, and those outside that they
stand for. -/
structure IdMapping where
  containerId : UInt32
  hostId : UInt32
  size : UInt32
  deriving DecidableEq, Repr

namespace IdMapping

/-- A single number. -/
def single (containerId hostId : UInt32) : IdMapping :=
  ⟨containerId, hostId, 1⟩

/-- The fields of a mapping in a document. -/
def record : Record IdMapping :=
  IdMapping.mk
    <$> .required "containerID" Decoder.uint32
    <*> .required "hostID" Decoder.uint32
    <*> .required "size" Decoder.uint32

/-- A mapping in a document. -/
def decoder : Decoder IdMapping :=
  record.decoder "IdMapping"

/-- A mapping as a document. -/
def toJson (m : IdMapping) : Json :=
  .ofList [
    ("containerID", .nat m.containerId.toNat),
    ("hostID", .nat m.hostId.toNat),
    ("size", .nat m.size.toNat)]

end IdMapping

/-- A program that is run at a stage of an instance's life. -/
structure Hook where
  path : String
  /-- The command, from the name of the program on. -/
  args : List String
  deriving DecidableEq, Repr

namespace Hook

/-- The fields of a hook in a document. -/
def record : Record Hook :=
  Hook.mk
    <$> .required "path" Decoder.string
    <*> .required "args" (.list .string)

/-- A hook in a document. -/
def decoder : Decoder Hook :=
  record.decoder "Hook"

/-- A hook as a document. -/
def toJson (h : Hook) : Json :=
  .ofList [("path", .str h.path), ("args", .strings h.args)]

end Hook

/-- Whom the process of an instance runs as, within it. -/
structure User where
  uid : UInt32
  gid : UInt32
  additionalGids : List UInt32
  deriving DecidableEq, Repr

namespace User

/-- The fields of a user in a document. -/
def record : Record User :=
  User.mk
    <$> .required "uid" Decoder.uint32
    <*> .required "gid" Decoder.uint32
    <*> .required "additionalGids" (.list .uint32)

/-- A user in a document. -/
def decoder : Decoder User :=
  record.decoder "User"

/-- A user as a document. -/
def toJson (u : User) : Json :=
  .ofList [
    ("uid", .nat u.uid.toNat),
    ("gid", .nat u.gid.toNat),
    ("additionalGids", .arr (u.additionalGids.map fun g => .nat g.toNat))]

end User

end Sandbox
