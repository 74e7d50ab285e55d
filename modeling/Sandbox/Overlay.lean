import Sandbox.Config
import Sandbox.Directories
import Sandbox.Host.Kernel

/-!
The root of an instance: the layers of its packages, mounted on one directory.

Above the layers that are only read is one for what the instance writes. A kernel is
told which layers to mount by a text (`Layout.options`), and how it mounts them is up to
it. Without another one it is the kernel that mounts overlays.
-/

namespace Sandbox

/-- The directories of a layered root. -/
structure Layout where
  /-- The layers that are only read, in the order of the packages. -/
  lowers : List Path
  /-- The layer that is written to. -/
  upper : Path
  /-- The directory that the system works in. -/
  work : Path
  /-- Where the root is mounted. -/
  merged : Path
  deriving DecidableEq, Repr

namespace Layout

/-- The layout of an instance under a root directory. -/
def ofInstance (root : Path) (id : InstanceId) (lowers : List Path) : Layout :=
  let dir := Config.instanceDirUnder root id
  ⟨lowers, dir.childText "upper", dir.childText "work", dir.childText "rootfs"⟩

/-- What the system is told to mount. -/
def options (l : Layout) : String :=
  "lowerdir=" ++ ":".intercalate (l.lowers.map Path.display) ++ ",upperdir=" ++ l.upper.display ++
    ",workdir=" ++ l.work.display

end Layout

/-- A root that has been mounted, and is unmounted again unless it is kept. -/
structure MountedRoot where
  path : Path
  deriving DecidableEq, Repr

/-- Unmounts what is mounted on a path. -/
def unmountRoot (h : Host) (p : Path) (k : Kernel := .overlay) : Except Error Host :=
  (k.unmount h p).mapError (.mounting .unmount p)

/-- Gives a mounted root up. A failure to unmount it is passed over. -/
def MountedRoot.giveUp (r : MountedRoot) (h : Host) (k : Kernel := .overlay) : Host :=
  (unmountRoot h r.path k).toOption.getD h

/-- Makes directories below a base one after the other. -/
def createAll (base : Path) (uid gid : UInt32) : Host → List Path → Except Error Unit × Host
  | h, [] => (.ok (), h)
  | h, p :: ps =>
    match createDirectories h base p uid gid with
    | (.error e, h) => (.error e, h)
    | (.ok (), h) => createAll base uid gid h ps

/-- Makes the directories of an instance and mounts its root. -/
def mountRoot (h : Host) (root : Path) (id : InstanceId) (layers : List Path) (uid gid : UInt32)
    (k : Kernel := .overlay) : Except Error MountedRoot × Host :=
  if layers = [] then (.error (.config (.noLayers id.text)), h)
  else
    let l := Layout.ofInstance root id layers
    match createAll root uid gid h [l.merged, l.work, l.upper] with
    | (.error e, h) => (.error e, h)
    | (.ok (), h) =>
      match k.mount h l.options l.merged with
      | (.error e, h) => (.error (.mounting .mount l.merged e), h)
      | (.ok (), h) => (.ok ⟨l.merged⟩, h)

end Sandbox
