import Sandbox.Memory.Limit
import Sandbox.Package.Metadata
import Sandbox.Spec.Basic

/-!
What packages contribute to a specification.

Packages contribute in the order in which they are listed. A package that cannot
be read contributes nothing. The memory limit is set once, after all packages.
-/

namespace Sandbox.Package

namespace Metadata

/-- The steps by which a package contributes, its memory limit apart. -/
def steps (m : Metadata) : List Spec.Step :=
  (m.entryPoint.filter (· ≠ "")).toList.map .pushArg ++
    m.permissions.map .addCapability ++
    m.configurations.map (fun c => .pushEnvEntry c.entry) ++
    m.envVariables.map .pushEnvEntry

/-- The memory limit of a package, zero if it has none. -/
def limit (m : Metadata) : UInt64 :=
  m.memoryLimit.elim 0 Memory.parseLimit

/-- The limits with that of one more package. -/
def recordLimit (t : OverrideTable UInt64) (m : Metadata) : OverrideTable UInt64 :=
  if m.limit = 0 then t else t.record m.packageType m.limit

end Metadata

/-- The metadata of the packages that can be read. -/
def readable (h : Host) (packages : List Package) : List Metadata :=
  packages.filterMap fun p => (Metadata.load h p.metadataPath).toOption

/-- The memory limit that packages ask for. -/
def limit? (ms : List Metadata) : Option UInt64 :=
  (ms.foldl Metadata.recordLimit .empty).resolve

/-- The steps that add what packages contribute. -/
def contributionSteps (ms : List Metadata) : List Spec.Step :=
  ms.flatMap Metadata.steps ++ (limit? ms).toList.map .setMemoryLimit

end Sandbox.Package
