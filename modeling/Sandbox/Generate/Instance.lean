import Sandbox.Generate.Generator
import Sandbox.Overlay
import Sandbox.Package.Basic

/-!
Instances from beginning to end: the root is mounted and the specification written,
and at last the root is unmounted.

When its specification could not be written, a root is unmounted again by its path.
-/

namespace Sandbox.Generator

/-- An instance that is ready to be run. -/
structure Prepared where
  rootfs : Path
  specPath : Path
  spec : Spec
  deriving DecidableEq, Repr

/-- Prepares the instance of an application from a manifest. -/
def prepare (g : Generator) (h : Host) (a : Application) (manifest : Path) (k : Kernel := .overlay) :
    Except StageFailure Prepared × Host :=
  match Package.loadManifest h manifest with
  | .error e => (.error ⟨.manifest, e⟩, h)
  | .ok packages =>
    match mountRoot h g.config.overlayRoot a.instanceId (packages.map Package.mountPath) a.uid a.gid k with
    | (.error e, h) => (.error ⟨.overlay, e⟩, h)
    | (.ok root, h) =>
      match g.generate h a packages with
      | (.error e, h) => (.error e, root.giveUp h k)
      | (.ok generated, h) => (.ok ⟨root.path, generated.path, generated.spec⟩, h)

/-- Unmounts the root of an instance. -/
def teardown (g : Generator) (h : Host) (id : InstanceId) (k : Kernel := .overlay) :
    Except StageFailure Host :=
  Stage.overlay.guard (unmountRoot h (g.config.rootfsPath id) k)

end Sandbox.Generator
