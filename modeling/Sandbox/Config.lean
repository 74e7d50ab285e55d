import Sandbox.Host.Document
import Sandbox.InstanceId
import Sandbox.Json.Record

/-!
The configuration of a device: where templates, instances and sockets are, and
what instances are started with.

A configuration file may leave out any field; a field that is left out keeps its
default. Every path of an instance is made from the configuration and the id.
-/

namespace Sandbox

/-- The configuration of a device. -/
structure Config where
  /-- The document that every specification starts from. -/
  baseTemplate : Path
  /-- The document that says how graphics are reached. -/
  graphicsDescriptor : Path
  /-- The directory with one directory for each instance. -/
  overlayRoot : Path
  /-- The directory of the sockets that instances talk through. -/
  ipcSocketDir : Path
  /-- The program that hooks run. -/
  launcherPath : Path
  /-- The name that program is given. -/
  launcherName : String
  /-- The directory that an instance works in. -/
  workingDir : String
  /-- Where an instance finds its storage. -/
  storageContainerPath : String
  /-- The group that may use video devices. -/
  videoGroup : String
  /-- The number of that group where its name is not known. -/
  defaultVideoGid : UInt32
  /-- The user that instances belong to where no numbers are given. -/
  serviceUser : String
  deriving DecidableEq, Repr

namespace Config

/-- The configuration of a device without a configuration file. -/
def default : Config where
  baseTemplate := .ofString "/etc/appcell/base-config.json"
  graphicsDescriptor := .ofString "/etc/appcell/gpu-config.json"
  overlayRoot := .ofString "/var/run/appcell/containers"
  ipcSocketDir := .ofString "/tmp/appcell/ipc"
  launcherPath := .ofString "/usr/bin/appcell-hook"
  launcherName := "appcell-hook"
  workingDir := "/tmp"
  storageContainerPath := "/home/private"
  videoGroup := "video"
  defaultVideoGid := 44
  serviceUser := "appcell"

/-- Where a configuration is looked for when none is named. -/
def systemFile : Path :=
  .ofString "/etc/appcell/appcell.json"

/-- The fields of a configuration in a document. -/
def record : Record Config :=
  Config.mk
    <$> .defaulting "baseTemplate" Decoder.path default.baseTemplate
    <*> .defaulting "graphicsDescriptor" Decoder.path default.graphicsDescriptor
    <*> .defaulting "overlayRoot" Decoder.path default.overlayRoot
    <*> .defaulting "ipcSocketDir" Decoder.path default.ipcSocketDir
    <*> .defaulting "launcherPath" Decoder.path default.launcherPath
    <*> .defaulting "launcherName" Decoder.string default.launcherName
    <*> .defaulting "workingDir" Decoder.string default.workingDir
    <*> .defaulting "storageContainerPath" Decoder.string default.storageContainerPath
    <*> .defaulting "videoGroup" Decoder.string default.videoGroup
    <*> .defaulting "defaultVideoGid" Decoder.uint32 default.defaultVideoGid
    <*> .defaulting "serviceUser" Decoder.string default.serviceUser

/-- A configuration in a document. -/
def decoder : Decoder Config :=
  record.decoder "GeneratorConfig"

/-- A configuration as a document. -/
def toJson (c : Config) : Json :=
  .ofList [
    ("baseTemplate", .str c.baseTemplate.display),
    ("graphicsDescriptor", .str c.graphicsDescriptor.display),
    ("overlayRoot", .str c.overlayRoot.display),
    ("ipcSocketDir", .str c.ipcSocketDir.display),
    ("launcherPath", .str c.launcherPath.display),
    ("launcherName", .str c.launcherName),
    ("workingDir", .str c.workingDir),
    ("storageContainerPath", .str c.storageContainerPath),
    ("videoGroup", .str c.videoGroup),
    ("defaultVideoGid", .nat c.defaultVideoGid.toNat),
    ("serviceUser", .str c.serviceUser)]

/-- The configuration in the file that a path leads to. -/
def load (h : Host) (p : Path) : Except Error Config :=
  h.loadValue p decoder

/-! ### Paths of an instance -/

/-- The directory of an instance under a root. -/
def instanceDirUnder (root : Path) (id : InstanceId) : Path :=
  root.childText id.text

/-- The directory of an instance. -/
def instanceDir (c : Config) (id : InstanceId) : Path :=
  instanceDirUnder c.overlayRoot id

/-- The file with the specification of an instance. -/
def specPath (c : Config) (id : InstanceId) : Path :=
  (c.instanceDir id).childText "config.json"

/-- Where the root of an instance is mounted. -/
def rootfsPath (c : Config) (id : InstanceId) : Path :=
  (c.instanceDir id).childText "rootfs"

/-- The socket that an instance talks through. -/
def ipcSocketPath (c : Config) (id : InstanceId) : Path :=
  c.ipcSocketDir.childText (id.text ++ ".sock")

end Config

end Sandbox
