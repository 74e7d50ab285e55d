import Mathlib.Data.List.Basic
import Sandbox.Generate.Generator
import Sandbox.Proofs.Host.Agree

/-!
What building a specification reads.

It reads the template, the descriptor of graphics, the device nodes named there, and
the metadata of packages (`Generator.Reads`), and nothing else of the host: hosts that
differ only below a place that no such path leads by give the same specification or
the same failure (`build_of_agreeOn`).
-/

namespace Sandbox.Generator

open Host

variable {g : Generator} {h h' : Host} {a : Application} {packages : List Package}

/-- The paths that are read when a specification is built. -/
inductive Reads (g : Generator) (h : Host) (packages : List Package) : Path → Prop where
  | template : Reads g h packages g.config.baseTemplate
  | descriptor : Reads g h packages g.config.graphicsDescriptor
  | node {graphics : Graphics} {p : Path} : Graphics.load h g.config.graphicsDescriptor = .ok graphics →
      p ∈ graphics.devNodes → Reads g h packages p
  | metadata {p : Package} : p ∈ packages → Reads g h packages p.metadataPath

/-- A descriptor without device nodes leads to no further path. -/
theorem Reads.mem_of_no_node {p : Path} (reads : g.Reads h packages p)
    (none : (Graphics.load h g.config.graphicsDescriptor).toOption.all (·.devNodes.isEmpty) = true) :
    p ∈ g.config.baseTemplate :: g.config.graphicsDescriptor :: packages.map (·.metadataPath) := by
  cases reads with
  | template => simp
  | descriptor => simp
  | node loaded mem =>
      rw [loaded] at none
      rw [List.isEmpty_iff.mp none] at mem
      cases mem
  | metadata mem => simp [List.mem_map_of_mem mem]

theorem grant_congr {graphics : Graphics} (accounts : Accounts)
    (same : ∀ p ∈ graphics.devNodes, h'.entryAt p = h.entryAt p) :
    graphics.grant h' accounts = graphics.grant h accounts := by
  have devices : (graphics.devNodes.filterMap fun p => (h'.device p).toOption) =
      graphics.devNodes.filterMap fun p => (h.device p).toOption :=
    List.filterMap_congr fun p mem => by rw [device_congr (same p mem)]
  simp only [Graphics.grant, devices]

theorem readable_congr (same : ∀ p ∈ packages, h'.entryAt p.metadataPath = h.entryAt p.metadataPath) :
    Package.readable h' packages = Package.readable h packages :=
  List.filterMap_congr fun p mem => by
    rw [Package.Metadata.load, loadDecoded_congr _ (same p mem), Package.Metadata.load]

/-- A specification depends on the entries that its paths lead to. -/
theorem build_congr (same : ∀ p, g.Reads h packages p → h'.entryAt p = h.entryAt p) :
    g.build h' a packages = g.build h a packages := by
  have base : g.template h' = g.template h := by
    rw [template, loadDocument_congr (same _ .template), template]
  have descriptor : Graphics.load h' g.config.graphicsDescriptor =
      Graphics.load h g.config.graphicsDescriptor := by
    rw [Graphics.load, loadDecoded_congr _ (same _ .descriptor), Graphics.load]
  have metadata := readable_congr fun p mem => same _ (.metadata mem)
  unfold build
  rw [base, descriptor, metadata]
  cases loaded : Graphics.load h g.config.graphicsDescriptor with
  | error e => rfl
  | ok graphics =>
      have granted := grant_congr g.accounts fun p mem => same p (.node loaded mem)
      cases g.template h with
      | error e => rfl
      | ok template =>
          change g.assemble a template (graphics.grant h' g.accounts) _ = _
          rw [granted]
          rfl

theorem build_of_agreeOn {l : Location} (agree : AgreeOn (¬ l <+: ·) h h')
    (avoids : ∀ p, g.Reads h packages p → h.Avoids p l) : g.build h' a packages = g.build h a packages :=
  build_congr fun p reads => entryAt_of_agreeOn (avoids p reads) agree

end Sandbox.Generator
