import Sandbox.CommandLine.Run

/-!
The paths that a command looks at.

They depend on what is in the files: the configuration names the template and the
descriptor, and these name others. `footprint` gives the paths that follow from
what is known of the host. When all of them are known, it names no new ones.
-/

namespace Sandbox.CommandLine

/-- The paths of an instance under a configuration. -/
def instancePaths (c : Config) (id : String) : List Path :=
  match InstanceId.ofString id with
  | .ok id =>
    let l := Layout.ofInstance c.overlayRoot id []
    [c.overlayRoot, c.specPath id, l.upper, l.work, l.merged]
  | .error _ => []

/-- The device nodes that the descriptor names. -/
def devicePaths (c : Config) (h : Host) : List Path :=
  match Graphics.load h c.graphicsDescriptor with
  | .ok g => g.devNodes
  | .error _ => []

/-- The documents and layers of the packages that a manifest lists. -/
def packagePaths (h : Host) (manifest : Path) : List Path :=
  match Package.loadManifest h manifest with
  | .ok packages => packages.flatMap fun p => [p.metadataPath, p.mountPath]
  | .error _ => []

/-- The paths of a command under a configuration. -/
def Command.paths (command : Command) (c : Config) (h : Host) : List Path :=
  let ofApplication (manifest : Path) (a : ApplicationArguments) :=
    [c.baseTemplate, c.graphicsDescriptor, manifest] ++ instancePaths c a.instanceId ++
      devicePaths c h ++ packagePaths h manifest
  match command with
  | .prepare manifest a => ofApplication manifest a
  | .generate manifest _ a => ofApplication manifest a
  | .teardown id => instancePaths c id
  | .parseMemory _ => []

/-- The paths that a command line looks at. -/
def Invocation.footprint (i : Invocation) (h : Host) : List Path :=
  i.config.getD Config.systemFile ::
    match loadConfig h i.config with
    | .ok c => i.command.paths c h
    | .error _ => []

end Sandbox.CommandLine
