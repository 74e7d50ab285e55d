import Mathlib.Data.List.TakeWhile
import Sandbox.Proofs.Host.Directories
import Sandbox.Proofs.Host.Options

/-!
What mounting relies on.

Mounting and unmounting are up to a kernel. Of one that is not known, as much is assumed
as systems document (`Kernel.Lawful`): what a mount shows, it shows below its mount point;
the work directory is the kernel's own, and nothing below it is safe, even if the mount
fails; options that nothing divides are read as they were put together
(`Layout.Legible`); unmounting takes away the topmost overlay where a path leads, and
what that had covered is there again if nothing was written in between.

The kernel that is executed is lawful (`Kernel.overlay_lawful`).
-/

namespace Sandbox

open Sandbox.Path

namespace Layout

/-- The options of a layout are read as they were put together: nothing divides them, no
backslash takes its meaning from a character, and they fit into the page that a kernel is
handed. -/
structure Legible (l : Layout) : Prop where
  undivided : l.Undivided
  unescaped : '\\' ∉ l.options.toList
  short : l.options.utf8ByteSize < 4096

end Layout

namespace Sample

/-- On the small device, layers are undivided if no character in them divides options. -/
theorem undivided {id : InstanceId} (mem : id ∈ [first, second]) (ts : List String) (some : ts ≠ [])
    (plain : ∀ t ∈ ts, ',' ∉ t.toList ∧ ':' ∉ t.toList) :
    (Layout.ofInstance config.overlayRoot id (ts.map .ofString)).Undivided := by
  have root : config.overlayRoot.Lacks [','] := ⟨"/instances", rfl, List.forall_mem_singleton.mpr (by decide)⟩
  have name : ',' ∉ id.text.toList := by
    rcases List.mem_pair.mp mem with rfl | rfl
    · decide
    · decide
  have dir := root.childText id.isSegment_text (by decide) (List.forall_mem_singleton.mpr name)
  refine ⟨by simpa [Layout.ofInstance] using some, List.forall_mem_map.mpr fun t mem => ⟨t, rfl, by simpa using plain t mem⟩, ?_, ?_⟩
  · exact dir.childText (s := "upper") (by decide) (by decide) (List.forall_mem_singleton.mpr (by decide))
  · exact dir.childText (s := "work") (by decide) (by decide) (List.forall_mem_singleton.mpr (by decide))

/-- The layouts of its instances are legible. -/
theorem legible {id : InstanceId} (mem : id ∈ [first, second]) :
    (Layout.ofInstance config.overlayRoot id [package.mountPath]).Legible := by
  refine ⟨undivided mem ["/layer"] (List.cons_ne_nil _ _) (by decide), ?_, ?_⟩
  · rcases List.mem_pair.mp mem with rfl | rfl
    · decide +kernel
    · decide +kernel
  · rcases List.mem_pair.mp mem with rfl | rfl
    · decide +kernel
    · decide +kernel

end Sample

namespace Host

variable {h h' : Host} {options : String} {p : Path} {m : OverlayMount} {w k l : Location}

/-! ### What a kernel may do -/

/-- A place may be changed by a kernel that works in a directory: it stands below that, or
it is shown by an overlay while a layer of some overlay reaches there. -/
def WorkedIn (h : Host) (w k : Location) : Prop :=
  k.IsBelow w ∨
    (∃ m ∈ h.mounts, k.IsBelow m.point) ∧ ∃ m ∈ h.mounts, ∃ l ∈ m.upper :: m.lowers, l <+: w ∨ w <+: l

theorem SameSetting.workedIn_iff (setting : h.SameSetting h') : h'.WorkedIn w k ↔ h.WorkedIn w k := by
  unfold WorkedIn
  rw [setting.mounts]

/-- An overlay comes to be mounted as it was asked for. -/
structure Mounts (h : Host) (options : String) (p : Path) (m : OverlayMount) (h' : Host) : Prop where
  point : h.resolve p = .ok m.point
  allowed : h.privileges.mount = true
  layers : ∀ l : Layout, l.Legible → l.options = options →
    List.Forall₂ (fun q k => h.resolve q = .ok k) l.lowers m.lowers ∧ h.resolve l.upper = .ok m.upper ∧
      h.resolve l.work = .ok m.work
  mounts : h'.mounts = m :: h.mounts
  workingDirectory : h'.workingDirectory = h.workingDirectory
  privileges : h'.privileges = h.privileges
  elsewhere : ∀ k, ¬ h.WorkedIn m.work k → ¬ k.IsBelow m.point → h'.tree.get? k = h.tree.get? k

/-- An overlay comes not to be mounted. The kernel may have begun to work. -/
structure Refuses (h : Host) (options : String) (h' : Host) : Prop where
  setting : h.SameSetting h'
  elsewhere : (∀ k, h'.tree.get? k = h.tree.get? k) ∨
    ∃ w, (∀ l : Layout, l.Legible → l.options = options → h.resolve l.work = .ok w) ∧
      ∀ k, ¬ h.WorkedIn w k → h'.tree.get? k = h.tree.get? k

/-- The topmost overlay where a path leads is mounted no longer, and what was mounted
within it may be gone with it. -/
structure Unmounts (h : Host) (p : Path) (m : OverlayMount) (h' : Host) : Prop where
  point : h.resolve p = .ok m.point
  mounts : ∃ within within' others, h.mounts = within ++ m :: others ∧ (∀ n ∈ within, n.point ≠ m.point) ∧
    within'.Sublist within ∧ h'.mounts = within' ++ others
  workingDirectory : h'.workingDirectory = h.workingDirectory
  privileges : h'.privileges = h.privileges
  elsewhere : ∀ k, ¬ k.IsBelow m.point → h'.tree.get? k = h.tree.get? k

theorem Unmounts.mounts_subset (unmounts : h.Unmounts p m h') : h'.mounts ⊆ h.mounts := by
  obtain ⟨within, within', others, before, -, sub, after⟩ := unmounts.mounts
  rw [before, after]
  exact List.append_subset.mpr ⟨fun n mem => List.mem_append_left _ (sub.subset mem),
    fun n mem => List.mem_append_right _ (List.mem_cons_of_mem m mem)⟩

theorem Unmounts.mem (unmounts : h.Unmounts p m h') : m ∈ h.mounts := by
  obtain ⟨within, within', others, before, -⟩ := unmounts.mounts
  simp [before]

/-- Where the latest overlay is, there is none above it. -/
theorem Unmounts.mounts_eq {n : OverlayMount} {ms : List OverlayMount} (unmounts : h.Unmounts p m h')
    (latest : h.mounts = n :: ms) (there : h.resolve p = .ok n.point) : m = n ∧ h'.mounts = ms := by
  have same : m.point = n.point := Except.ok.inj (unmounts.point.symm.trans there)
  obtain ⟨within, within', others, before, differ, sub, after⟩ := unmounts.mounts
  rw [latest] at before
  cases within with
  | nil =>
      obtain ⟨rfl, rfl⟩ := List.cons.inj before
      cases List.sublist_nil.mp sub
      exact ⟨rfl, after⟩
  | cons first within =>
      obtain ⟨rfl, -⟩ := List.cons.inj before
      exact absurd same.symm (differ n List.mem_cons_self)

end Host

/-- What is relied on in a kernel. -/
structure Kernel.Lawful (k : Kernel) : Prop where
  mounts : ∀ {h options p h'}, k.mount h options p = (.ok (), h') → ∃ m, h.Mounts options p m h'
  refuses : ∀ {h options p e h'}, k.mount h options p = (.error e, h') → h.Refuses options h'
  unmounts : ∀ {h p h'}, k.unmount h p = .ok h' → ∃ m, h.Unmounts p m h'
  /-- The overlay that was mounted last can be unmounted where it is found. -/
  finds : ∀ {h : Host} {p m ms}, h.mounts = m :: ms → h.resolve p = .ok m.point →
    h.privileges.mount = true → ∃ h', k.unmount h p = .ok h'
  /-- What an overlay covered is there again, unless something was made below the mount
  point, or something other than a directory was changed elsewhere. -/
  uncovers : ∀ {h options p m h₁ h₂ h₃}, k.mount h options p = (.ok (), h₁) → h₁.mounts = m :: h.mounts →
    h₁.OnlyDirectories h₂ → (∀ l : Location, l.IsBelow m.point → h₁.tree.get? l = none → h₂.tree.get? l = none) →
    h₂.resolve p = .ok m.point → k.unmount h₂ p = .ok h₃ →
    ∀ l e, ¬ h.WorkedIn m.work l → l.IsBelow m.point → e.isDirectory = false →
      (h₃.tree.get? l = some e ↔ h.tree.get? l = some e)

/-! ### The kernel that mounts overlays -/

namespace FileTree

theorem get?_clearWork (t : FileTree) {w k : Location} (outside : ¬ k.IsBelow w) :
    (t.clearWork w).get? k = t.get? k := by
  let place := w ++ [Utf8.encode "work".toList]
  have other : k ≠ place := by
    rintro rfl
    exact outside ⟨List.prefix_append _ _, by simp [place]⟩
  have notBelow : ¬ k.IsBelow place := by
    rintro ⟨within, -⟩
    refine outside ⟨(List.prefix_append _ _).trans within, ?_⟩
    rintro rfl
    have longer := within.length_le
    simp only [place, List.length_append, List.length_singleton] at longer
    omega
  rw [clearWork, get?_insert_of_ne _ _ other, get?_withBelow, if_neg notBelow]

end FileTree

namespace Host

variable {h h' : Host} {options : String} {p : Path} {m : OverlayMount} {k l : Location}

theorem forall₂_of_mapM_resolve {ps : List Path} {ls : List Location} (ok : ps.mapM h.resolve = .ok ls) :
    List.Forall₂ (fun q k => h.resolve q = .ok k) ps ls := by
  induction ps generalizing ls with
  | nil => cases ok; exact .nil
  | cons q ps ih =>
      rw [List.mapM_cons] at ok
      cases first : h.resolve q with
      | error e => rw [first] at ok; cases ok
      | ok k =>
          cases rest : ps.mapM h.resolve with
          | error e => rw [first, rest] at ok; cases ok
          | ok ks =>
              rw [first, rest] at ok
              cases ok
              exact .cons first (ih rest)

/-- Legible options lead to the directories that they were put together from. -/
theorem locateLayers_eq_ok {layout : Layout} {lowers : List Location} {upper work : Location}
    (legible : layout.Legible) (located : h.locateLayers layout.options = .ok (lowers, upper, work)) :
    List.Forall₂ (fun q k => h.resolve q = .ok k) layout.lowers lowers ∧ h.resolve layout.upper = .ok upper ∧
      h.resolve layout.work = .ok work := by
  rw [locateLayers, legible.undivided.readOptions_eq] at located
  dsimp only at located
  cases first : layout.lowers.mapM h.resolve with
  | error e => rw [first] at located; cases located
  | ok ls =>
  cases second : h.resolve layout.upper with
  | error e => rw [first, second] at located; cases located
  | ok u =>
  cases third : h.resolve layout.work with
  | error e => rw [first, second, third] at located; cases located
  | ok w =>
  rw [first, second, third] at located
  cases located
  exact ⟨forall₂_of_mapM_resolve first, rfl, rfl⟩

theorem mountOverlay_eq_ok (ok : h.mountOverlay options p = (.ok (), h')) :
    ∃ point lowers upper work, h.resolve p = .ok point ∧ h.locateLayers options = .ok (lowers, upper, work) ∧
      h.privileges.mount = true ∧ h' = h.withOverlay point lowers upper work := by
  unfold mountOverlay at ok
  split at ok
  case h_1 => cases ok
  case h_2 => cases ok
  case h_3 point lowers upper work resolved located =>
    split at ok
    case isTrue => cases ok
    case isFalse allowed =>
    split at ok
    case isTrue => cases ok; exact ⟨point, lowers, upper, work, resolved, located, by simpa using allowed, rfl⟩
    case isFalse => cases ok

theorem eq_of_mountOverlay_error {e : IoFailure} (failed : h.mountOverlay options p = (.error e, h')) : h' = h := by
  unfold mountOverlay at failed
  split at failed
  case h_1 => cases failed; rfl
  case h_2 => cases failed; rfl
  case h_3 =>
    split at failed
    case isTrue => cases failed; rfl
    case isFalse =>
    split at failed
    case isTrue => cases failed
    case isFalse => cases failed; rfl

theorem mounts_withOverlay {point upper work : Location} {lowers : List Location}
    (resolved : h.resolve p = .ok point) (located : h.locateLayers options = .ok (lowers, upper, work))
    (allowed : h.privileges.mount = true) :
    h.Mounts options p ⟨point, upper, lowers, work, h.tree.clearWork work⟩ (h.withOverlay point lowers upper work) where
  point := resolved
  allowed := allowed
  layers := by
    rintro layout legible rfl
    exact locateLayers_eq_ok legible located
  mounts := rfl
  workingDirectory := rfl
  privileges := rfl
  elsewhere k notWorked outside := by
    rw [withOverlay, FileTree.get?_withBelow, if_neg outside]
    exact FileTree.get?_clearWork h.tree fun below => notWorked (.inl below)

theorem unmountOverlay_eq_ok (ok : h.unmountOverlay p = .ok h') :
    ∃ m, h.Unmounts p m h' ∧ h'.tree = h.tree.withBelow m.point m.covered := by
  unfold unmountOverlay at ok
  split at ok
  case h_1 => cases ok
  case h_2 l resolved =>
  split at ok
  case isTrue => cases ok
  case isFalse =>
  dsimp only at ok
  have both := List.takeWhile_append_dropWhile (p := fun m : OverlayMount => !m.point.isPrefixOf l) (l := h.mounts)
  split at ok
  case h_1 => cases ok
  case h_2 m others dropped =>
  split at ok
  case isFalse => cases ok
  case isTrue here =>
  cases ok
  subst here
  rw [dropped] at both
  refine ⟨m, ⟨resolved, ⟨_, _, others, both.symm, ?_, List.filter_sublist, rfl⟩, rfl, rfl, ?_⟩, rfl⟩
  · intro n mem same
    have apart := List.mem_takeWhile_imp mem
    rw [same, List.isPrefixOf_iff_prefix.mpr (List.prefix_refl _)] at apart
    cases apart
  · intro k outside
    rw [FileTree.get?_withBelow, if_neg outside]

theorem exists_unmountOverlay {ms : List OverlayMount} (latest : h.mounts = m :: ms)
    (there : h.resolve p = .ok m.point) (allowed : h.privileges.mount = true) :
    ∃ h', h.unmountOverlay p = .ok h' := by
  have first : h.mounts.dropWhile (fun n => !n.point.isPrefixOf m.point) = m :: ms := by
    rw [latest]
    simp
  unfold unmountOverlay
  simp only [there, allowed, first, Bool.not_true, Bool.false_eq_true, if_false, if_true]
  exact ⟨_, rfl⟩

end Host

open Host

/-- The kernel that mounts overlays is lawful. -/
theorem Kernel.overlay_lawful : Kernel.overlay.Lawful where
  mounts := by
    intro h options p h' ok
    obtain ⟨point, lowers, upper, work, resolved, located, allowed, rfl⟩ := mountOverlay_eq_ok ok
    exact ⟨_, mounts_withOverlay resolved located allowed⟩
  refuses := by
    intro h options p e h' failed
    cases eq_of_mountOverlay_error failed
    exact ⟨.refl h, .inl fun _ => rfl⟩
  unmounts := by
    intro h p h' ok
    obtain ⟨m, unmounts, -⟩ := unmountOverlay_eq_ok ok
    exact ⟨m, unmounts⟩
  finds := exists_unmountOverlay
  uncovers := by
    intro h options p m h₁ h₂ h₃ mounted latest only _ there unmounted l e notWorked within _
    obtain ⟨point, lowers, upper, work, -, -, -, rfl⟩ := mountOverlay_eq_ok mounted
    obtain ⟨rfl, -⟩ := List.cons.inj latest
    obtain ⟨n, unmounts, uncovered⟩ := unmountOverlay_eq_ok unmounted
    obtain ⟨rfl, -⟩ := unmounts.mounts_eq only.setting.mounts there
    rw [uncovered, FileTree.get?_withBelow, if_pos within,
      FileTree.get?_clearWork h.tree fun below => notWorked (.inl below)]

end Sandbox
