import Sandbox.Overlay
import Sandbox.Proofs.Host.Directories

/-!
The course of mounting a root.

Directories are made for it, and then a kernel is asked to mount its layers with the
options of its layout (`mountRoot_eq_ok`, `mountRoot_of_error`). Giving a root up is asking
the kernel to unmount what its path leads to (`MountedRoot.giveUp_cases`). All this holds
of any kernel.
-/

namespace Sandbox

open Host

variable {k : Kernel} {h h' : Host} {root : Path} {id : InstanceId} {layers : List Path} {uid gid : UInt32}

/-- A host on which the directories of a layout have been made, as far as that went. -/
def Layout.making (l : Layout) (root : Path) (uid gid : UInt32) (h : Host) : Except Error Unit × Host :=
  createAll root uid gid h [l.merged, l.work, l.upper]

/-- A root that could not be mounted has no layers, or its directories could not be made,
or it was refused after that. -/
theorem mountRoot_of_error {e : Error} (failed : mountRoot h root id layers uid gid k = (.error e, h')) :
    h' = h ∨ (∃ e', (Layout.ofInstance root id layers).making root uid gid h = (.error e', h')) ∨
      layers ≠ [] ∧ ∃ h₁ e', (Layout.ofInstance root id layers).making root uid gid h = (.ok (), h₁) ∧
        k.mount h₁ (Layout.ofInstance root id layers).options (Layout.ofInstance root id layers).merged =
          (.error e', h') := by
  unfold mountRoot at failed
  split at failed
  case isTrue => cases failed; exact .inl rfl
  case isFalse some =>
  dsimp only at failed
  split at failed
  case h_1 e h₁ run => cases failed; exact .inr (.inl ⟨e, run⟩)
  case h_2 h₁ run =>
  split at failed
  case h_1 e' h₂ refused => cases failed; exact .inr (.inr ⟨some, h₁, e', run, refused⟩)
  case h_2 => cases failed

/-- A root is mounted with the options of its layout, after its directories have been
made. -/
theorem mountRoot_eq_ok {r : MountedRoot} (ok : mountRoot h root id layers uid gid k = (.ok r, h')) :
    r.path = (Layout.ofInstance root id layers).merged ∧ layers ≠ [] ∧
      ∃ h₁, (Layout.ofInstance root id layers).making root uid gid h = (.ok (), h₁) ∧
        k.mount h₁ (Layout.ofInstance root id layers).options (Layout.ofInstance root id layers).merged =
          (.ok (), h') := by
  unfold mountRoot at ok
  split at ok
  case isTrue => cases ok
  case isFalse some =>
  dsimp only at ok
  split at ok
  case h_1 => cases ok
  case h_2 h₁ run =>
  split at ok
  case h_1 => cases ok
  case h_2 h₂ mounted => cases ok; exact ⟨rfl, some, h₁, run, mounted⟩

/-- A root that is given up is unmounted, or nothing is done. -/
theorem MountedRoot.giveUp_cases (r : MountedRoot) (h : Host) (k : Kernel) :
    k.unmount h r.path = .ok (r.giveUp h k) ∨
      (∃ e, k.unmount h r.path = .error e) ∧ r.giveUp h k = h := by
  unfold MountedRoot.giveUp unmountRoot
  cases unmounted : k.unmount h r.path with
  | error e => exact .inr ⟨⟨e, rfl⟩, rfl⟩
  | ok h' => exact .inl rfl

end Sandbox
