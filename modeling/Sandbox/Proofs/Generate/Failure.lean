import Sandbox.Proofs.Generate.Place
import Sandbox.Proofs.Generate.Sample
import Sandbox.Proofs.Generate.Stages
import Sandbox.Proofs.Host.Crossing
import Sandbox.Proofs.Host.Kernel

/-!
What is left of a run that fails.

Generating that fails leaves every entry that is no directory as it was: the
specification of an earlier run, and whatever else stands in the tree. Nothing at all is
changed before the specification is complete, so only the last stage can leave
directories behind.

Preparing that fails has mounted a root before, perhaps, and unmounts it by its path. It
leaves as much behind as generating, but for what stands where the kernel works
(`Config.Workplace`), and if the root does not cover the path to it
(`Config.Uncovered`). The overlay is then gone.
-/

namespace Sandbox

open Host

namespace Config

variable {c : Config} {h h' : Host} {id : InstanceId} {l : Location}

/-- A place may be changed by a kernel that works in the directory that an instance has
for it. -/
def Workplace (c : Config) (h : Host) (id : InstanceId) (l : Location) : Prop :=
  ∃ w, h.Denotes ((c.instanceDir id).childText "work") w ∧ h.WorkedIn w l

/-- A root that is mounted does not cover the path to it: the path crosses nothing below
the place that it denotes, and nothing where the kernel works. -/
def Uncovered (c : Config) (h : Host) (id : InstanceId) : Prop :=
  ∀ l k, h.Denotes (c.rootfsPath id) l → h.Crosses (c.rootfsPath id) k → ¬ k.IsBelow l ∧ ¬ c.Workplace h id k

theorem workplace_iff (only : h.OnlyDirectories h') : c.Workplace h' id l ↔ c.Workplace h id l := by
  unfold Workplace
  simp only [only.denotes_iff, only.setting.workedIn_iff]

theorem Uncovered.of_onlyDirectories (uncovered : c.Uncovered h id) (only : h.OnlyDirectories h') :
    c.Uncovered h' id := by
  intro l k denotes crosses
  rw [workplace_iff only]
  exact uncovered l k (only.denotes_iff.mp denotes) (only.crosses_iff.mp crosses)

/-- Where no link stands at all and nothing is mounted, a root covers no path that is
written with ordinary names. -/
theorem Uncovered.of_no_link (noLink : ∀ l target, h.tree.shapeAt l ≠ some (.link target))
    (ordinary : ∀ n ∈ c.overlayRoot.names, Path.Ordinary n) (unmounted : h.mounts = []) : c.Uncovered h id := by
  have own {n : Name} (mem : n ∈ rootNames) :
      ∀ s ∈ ((c.instanceDir id).child n).names, Path.Ordinary s := by
    have ordinary' := ordinary_of_mem_rootNames mem
    rw [names_child c id ordinary']
    exact List.forall_mem_append.mpr ⟨ordinary, id.ordinary_of_mem ordinary'⟩
  have rootfs := ordinary_of_mem_rootNames rootfsName_mem
  have work := ordinary_of_mem_rootNames workName_mem
  have plain (l : Location) (ss : List Name) : h.tree.NoLinkAlong l ss := fun _ target _ _ => noLink _ target
  intro l k denotes crosses
  cases denotes.eq_append (plain _ _) (own rootfsName_mem)
  obtain ⟨ts, within, rfl⟩ := crosses.eq_append (plain _ _) (own rootfsName_mem)
  constructor
  · rintro ⟨above, ne⟩
    exact ne (congrArg _ (within.eq_of_length_le ((List.prefix_append_right_inj _).mp above).length_le))
  rintro ⟨w, denotes', below | ⟨⟨m, mounted, -⟩, -⟩⟩
  case inr => rw [unmounted] at mounted; cases mounted
  cases denotes'.eq_append (plain _ _) (own workName_mem)
  have above := below.1
  rw [show (c.instanceDir id).childText "work" = (c.instanceDir id).child workName from rfl,
    origin_child c id work, names_child c id work, rootfsPath_eq, origin_child c id rootfs] at above
  rw [rootfsPath_eq, names_child c id rootfs] at within
  have inside := ((List.prefix_append_right_inj _).mp above).trans within
  have names := List.cons_prefix_cons.mp ((List.prefix_append_right_inj _).mp inside)
  exact absurd (List.cons_prefix_cons.mp names.2).1 (by decide)

end Config

namespace Generator

variable {k : Kernel} {g : Generator} {h h' h₁ h₂ h₃ : Host} {a : Application} {packages : List Package}

/-! ### Generating -/

section Mounted

variable {layers : List Path} {m : OverlayMount} {l : Location}
  (mounts : h.Mounts (Layout.ofInstance g.config.overlayRoot a.instanceId layers).options
    (g.config.rootfsPath a.instanceId) m h₁)
  (legible : (Layout.ofInstance g.config.overlayRoot a.instanceId layers).Legible)

include mounts legible

variable (uncovered : g.config.Uncovered h a.instanceId)

include uncovered

end Mounted

end Generator

end Sandbox
