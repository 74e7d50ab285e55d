import Sandbox.Accounts
import Sandbox.Application
import Sandbox.Config
import Sandbox.Spec.Basic

/-!
What the configuration and the application settle, whatever packages say: the hooks,
the user, the host name, the display socket, the storage and the instance's own socket.

The launcher is run as a hook at four stages of an instance's life.
-/

namespace Sandbox

/-- The stages at which the launcher is run. -/
def hookStages : List String :=
  ["createRuntime", "createContainer", "poststart", "poststop"]

/-- The hook that runs the launcher at a stage and tells it where the
specification is. -/
def launcherHook (c : Config) (stage : String) (specPath : Path) : Hook where
  path := c.launcherPath.display
  args := [c.launcherName, "-h", stage, "-c", specPath.display, "-v"]

/-- The steps that add the launcher's hooks to a specification. -/
def hookSteps (c : Config) (specPath : Path) : List Spec.Step :=
  hookStages.map fun stage => .addHook stage (launcherHook c stage specPath)

namespace Spec

/-- Mounts a path on the same path within the instance. -/
def bindSame (p : Path) : Step :=
  .addMount (.bind p.display p.display)

/-- The name of a display socket and the directory that it is in. -/
def socketParts (p : Path) : Except ConfigError (String × Path) :=
  if !p.isAbsolute then .error (.relativeSocket p)
  else
    match p.fileName?.bind fun n => (Path.mk n).text?, p.parent? with
    | some name, some dir => .ok (name, dir)
    | _, _ => .error (.namelessSocket p)

/-- The steps that settle whom the instance runs as and under which name. -/
def identitySteps (c : Config) (a : Application) (videoGid : UInt32) : List Step :=
  [.setUser ⟨0, 0, [videoGid]⟩, .setHostname a.appId, .setCwd c.workingDir,
    .addUidMapping (.single 0 a.uid), .addGidMapping (.single 0 a.gid)]

/-- The steps that settle where the display server is found. -/
def displaySteps (a : Application) (name : String) (dir : Path) : List Step :=
  [.pushEnv "WAYLAND_DISPLAY" name, .pushEnv "XDG_RUNTIME_DIR" dir.display, bindSame a.displaySocket]

/-- The steps that settle where the storage is found. -/
def storageSteps (c : Config) (a : Application) : List Step :=
  [.pushEnv "HOME" c.storageContainerPath,
    .addMount (.bind a.storagePath.display c.storageContainerPath),
    .pushEnv "APPCELL_STORAGE_PATH" c.storageContainerPath]

/-- The steps that settle where the instance's own socket is found. -/
def ipcSteps (c : Config) (a : Application) : List Step :=
  let socket := c.ipcSocketPath a.instanceId
  [bindSame socket, .pushEnv "APPCELL_IPC_SOCKET" socket.display]

/-- The number of the video group, or the default where its name is not known. -/
def videoGid (c : Config) (accounts : Accounts) : UInt32 :=
  (accounts.group c.videoGroup).toOption.getD c.defaultVideoGid

/-- Settles everything that the configuration and the application decide. -/
def settle (s : Spec) (c : Config) (accounts : Accounts) (a : Application) :
    Except ConfigError Spec := do
  let s ← s.runAll (identitySteps c a (videoGid c accounts))
  let (name, dir) ← socketParts a.displaySocket
  s.runAll (displaySteps a name dir ++ storageSteps c a ++ ipcSteps c a)

end Spec

end Sandbox
