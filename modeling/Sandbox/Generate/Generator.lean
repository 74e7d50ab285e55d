import Sandbox.Directories
import Sandbox.Generate.Contribution
import Sandbox.Generate.Failure
import Sandbox.Generate.Graphics
import Sandbox.Generate.Override
import Sandbox.Spec.Basic

/-!
Generating the specification of an instance.

`assemble` puts the specification together and looks at no file. `build` reads what
`assemble` needs and writes nothing. `generate` also writes the specification to its
place, so nothing is written unless every stage before has succeeded.
-/

namespace Sandbox

/-- What generating needs to know about the device. -/
structure Generator where
  config : Config
  accounts : Accounts
  deriving DecidableEq, Repr

namespace Generator

/-- The template as a specification. -/
def template (g : Generator) (h : Host) : Except Error Spec :=
  match h.loadDocument g.config.baseTemplate with
  | .error e => .error e
  | .ok j => (Spec.ofTemplate j).mapError .config

/-- The specification of an application's instance, put together from the template,
what was found of the graphics, and the metadata of the packages. Graphics that the
template has no place for are left out. -/
def assemble (g : Generator) (a : Application) (template : Spec) (grant : Graphics.Grant)
    (packages : List Package.Metadata) : Except StageFailure Spec := do
  let (_, s) := grant.apply template
  let s ← Stage.package.guardConfig (s.runAll (Package.contributionSteps packages))
  let s ← Stage.hooks.guardConfig (s.runAll (hookSteps g.config (g.config.specPath a.instanceId)))
  Stage.overrides.guardConfig (s.settle g.config g.accounts a)

/-- The specification of an application's instance, from the files on the host. -/
def build (g : Generator) (h : Host) (a : Application) (packages : List Package) :
    Except StageFailure Spec := do
  let template ← Stage.baseTemplate.guard (g.template h)
  let graphics ← Stage.graphicsDescriptor.guard (Graphics.load h g.config.graphicsDescriptor)
  g.assemble a template (graphics.grant h g.accounts) (Package.readable h packages)

/-- A specification that has been written. -/
structure Generated where
  path : Path
  spec : Spec
  deriving DecidableEq, Repr

/-- Writes the specification of an instance to its place. -/
def write (g : Generator) (h : Host) (a : Application) (s : Spec) : Except Error Generated × Host :=
  let path := g.config.specPath a.instanceId
  match createDirectories h g.config.overlayRoot (g.config.instanceDir a.instanceId) a.uid a.gid with
  | (.error e, h) => (.error e, h)
  | (.ok (), h) =>
    let (result, h) := s.save h path a.uid a.gid
    (result.map fun () => ⟨path, s⟩, h)

/-- Builds and writes the specification of an application's instance. -/
def generate (g : Generator) (h : Host) (a : Application) (packages : List Package) :
    Except StageFailure Generated × Host :=
  match g.build h a packages with
  | .error e => (.error e, h)
  | .ok s =>
    let (result, h) := g.write h a s
    (Stage.persist.guard result, h)

end Generator

end Sandbox
