import Sandbox.Generate.Instance
import Sandbox.Proofs.Host.Mount
import Sandbox.Proofs.Spec.File

/-!
The course of a run.

A run goes from stage to stage, and fails at one of them or comes to its end. Generating
changes nothing before the specification is complete (`Generator.generate_of_error`);
preparing mounts a root before it generates, and gives it up if that fails
(`Generator.Course`).
-/

namespace Sandbox.Generator

open Host

variable {g : Generator} {h h' : Host} {a : Application} {packages : List Package}

/-! ### Generating -/

theorem generate_of_build {s : Spec} (built : g.build h a packages = .ok s) :
    g.generate h a packages = (Stage.persist.guard (g.write h a s).1, (g.write h a s).2) := by
  rw [generate, built]

/-- Generating fails while the specification is put together, with nothing changed,
or while it is written. -/
theorem generate_of_error {e : StageFailure} (failed : g.generate h a packages = (.error e, h')) :
    g.build h a packages = .error e ∧ h' = h ∨
      e.stage = .persist ∧ ∃ s cause, g.write h a s = (.error cause, h') := by
  cases built : g.build h a packages with
  | error cause =>
      rw [generate, built] at failed
      cases failed
      exact .inl ⟨rfl, rfl⟩
  | ok s =>
      rw [generate_of_build built] at failed
      obtain ⟨result, rfl⟩ := Prod.mk.inj failed
      cases written : (g.write h a s).1 with
      | error cause =>
          rw [written] at result
          cases result
          exact .inr ⟨rfl, s, cause, Prod.ext written rfl⟩
      | ok generated => rw [written] at result; cases result

/-- Writing a specification succeeds by making directories and saving the file. -/
theorem write_eq_ok {s : Spec} {w : Generated} (ok : g.write h a s = (.ok w, h')) :
    ∃ h₁, h.OnlyDirectories h₁ ∧
      createDirectories h g.config.overlayRoot (g.config.instanceDir a.instanceId) a.uid a.gid =
        (.ok (), h₁) ∧
      s.save h₁ (g.config.specPath a.instanceId) a.uid a.gid = (.ok (), h') ∧
      w = ⟨g.config.specPath a.instanceId, s⟩ := by
  have made := createDirectories_onlyDirectories h g.config.overlayRoot
    (g.config.instanceDir a.instanceId) a.uid a.gid
  unfold write at ok
  dsimp only at ok
  split at ok
  case h_1 => cases ok
  case h_2 h₁ run =>
  rw [run] at made
  obtain ⟨result, rfl⟩ := Prod.mk.inj ok
  cases saved : (s.save h₁ (g.config.specPath a.instanceId) a.uid a.gid).1 with
  | error e => rw [saved] at result; cases result
  | ok u =>
      rw [saved] at result
      cases result
      exact ⟨h₁, made, run, Prod.ext saved rfl, rfl⟩

theorem generate_eq_ok {w : Generated} (ok : g.generate h a packages = (.ok w, h')) :
    ∃ s, g.build h a packages = .ok s ∧ g.write h a s = (.ok w, h') := by
  cases built : g.build h a packages with
  | error cause => rw [generate, built] at ok; cases ok
  | ok s =>
      rw [generate_of_build built] at ok
      obtain ⟨result, rfl⟩ := Prod.mk.inj ok
      cases written : (g.write h a s).1 with
      | error cause => rw [written] at result; cases result
      | ok w' =>
          rw [written] at result
          cases result
          exact ⟨s, rfl, Prod.ext written rfl⟩

/-! ### Preparing -/

/-- The course of a preparation: the manifest is read, the root mounted, and the
specification generated, as far as each stage succeeds. -/
inductive Course (g : Generator) (h : Host) (a : Application) (manifest : Path) (k : Kernel) :
    Except StageFailure Prepared → Host → Prop
  | unread {e : Error} : Package.loadManifest h manifest = .error e → Course g h a manifest k (.error ⟨.manifest, e⟩) h
  | unmounted {packages : List Package} {e : Error} {h₁ : Host} : Package.loadManifest h manifest = .ok packages →
      mountRoot h g.config.overlayRoot a.instanceId (packages.map Package.mountPath) a.uid a.gid k = (.error e, h₁) →
      Course g h a manifest k (.error ⟨.overlay, e⟩) h₁
  | givenUp {packages : List Package} {root : MountedRoot} {e : StageFailure} {h₁ h₂ : Host} :
      Package.loadManifest h manifest = .ok packages →
      mountRoot h g.config.overlayRoot a.instanceId (packages.map Package.mountPath) a.uid a.gid k = (.ok root, h₁) →
      g.generate h₁ a packages = (.error e, h₂) → Course g h a manifest k (.error e) (root.giveUp h₂ k)
  | ready {packages : List Package} {root : MountedRoot} {w : Generated} {h₁ h₂ : Host} :
      Package.loadManifest h manifest = .ok packages →
      mountRoot h g.config.overlayRoot a.instanceId (packages.map Package.mountPath) a.uid a.gid k = (.ok root, h₁) →
      g.generate h₁ a packages = (.ok w, h₂) → Course g h a manifest k (.ok ⟨root.path, w.path, w.spec⟩) h₂

theorem course_of_prepare {k : Kernel} {manifest : Path} {result : Except StageFailure Prepared}
    (run : g.prepare h a manifest k = (result, h')) : g.Course h a manifest k result h' := by
  unfold prepare at run
  split at run
  case h_1 e unread => cases run; exact .unread unread
  case h_2 packages loaded =>
  split at run
  case h_1 e h₁ unmounted => cases run; exact .unmounted loaded unmounted
  case h_2 root h₁ mounted =>
  split at run
  case h_1 e h₂ failed => cases run; exact .givenUp loaded mounted failed
  case h_2 w h₂ generated => cases run; exact .ready loaded mounted generated

end Sandbox.Generator
