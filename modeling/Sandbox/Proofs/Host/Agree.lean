import Sandbox.Device
import Sandbox.Proofs.Host.Change

/-!
Hosts that agree in some places, and what is read from them.

Reading depends on the places that a path makes the system look at (`Host.looks`).
Hosts that agree there give the same entry (`entryAt_of_agreeOn`), and so the same
document, value and device node.
-/

namespace Sandbox

namespace FileTree

variable {t : FileTree} {l m : Location} {ss : List Name} {n : Nat}

/-- A walk ends at a place that it started at or looked at, or above one. -/
theorem prefix_of_walk (ok : t.walk n l ss = .ok m) : ∃ k ∈ l :: t.visits n l ss, m <+: k := by
  rw [walk_eq_ok_iff] at ok
  induction ok with
  | here n => exact ⟨m, List.mem_cons_self, List.prefix_refl m⟩
  | @place n l l' s ss step _ ih =>
      obtain ⟨k, mem, above⟩ := ih
      obtain ⟨-, steps⟩ := step_eq_ok_iff.mp step
      rw [visits_cons_place step]
      rcases List.mem_cons.mp mem with rfl | mem
      · cases steps with
        | stay => exact ⟨_, List.mem_cons_self, above⟩
        | up => exact ⟨l, List.mem_cons_self, above.trans (List.dropLast_prefix l)⟩
        | down notDot notDotDot => exact ⟨l ++ [s], by simp [looks, notDot, notDotDot], above⟩
      · exact ⟨k, List.mem_cons_of_mem _ (List.mem_append_right _ mem), above⟩
  | @link n l dir s ss target step _ ih =>
      obtain ⟨k, mem, above⟩ := ih
      obtain ⟨-, steps⟩ := step_eq_ok_iff.mp step
      rw [visits_cons_link step]
      rcases List.mem_cons.mp mem with rfl | mem
      · cases steps with
        | link =>
            refine ⟨l, List.mem_cons_self, above.trans ?_⟩
            unfold Path.origin
            split
            · exact List.nil_prefix
            · exact List.prefix_refl l
      · exact ⟨k, List.mem_cons_of_mem _ (List.mem_append_right _ mem), above⟩

theorem shapeAt_eq_of_get? {t' : FileTree} (same : t'.get? l = t.get? l) : t'.shapeAt l = t.shapeAt l := by
  rw [shapeAt, same, shapeAt]

end FileTree

namespace Host

variable {S S' : Location → Prop} {h h' h'' : Host} {p : Path}

/-- The hosts have the same entries at some places, and differ in files alone. -/
structure AgreeOn (S : Location → Prop) (h h' : Host) : Prop where
  get? : ∀ k, S k → h'.tree.get? k = h.tree.get? k
  setting : h.SameSetting h'

namespace AgreeOn

theorem refl (S : Location → Prop) (h : Host) : AgreeOn S h h :=
  ⟨fun _ _ => rfl, .refl h⟩

theorem trans (a : AgreeOn S h h') (a' : AgreeOn S h' h'') : AgreeOn S h h'' :=
  ⟨fun k hk => (a'.get? k hk).trans (a.get? k hk), a.setting.trans a'.setting⟩

theorem mono (a : AgreeOn S h h') (sub : ∀ k, S' k → S k) : AgreeOn S' h h' :=
  ⟨fun k hk => a.get? k (sub k hk), a.setting⟩

theorem shapeAt (a : AgreeOn S h h') {k : Location} (hk : S k) : h'.tree.shapeAt k = h.tree.shapeAt k :=
  FileTree.shapeAt_eq_of_get? (a.get? k hk)

theorem isDirectory (a : AgreeOn S h h') {k : Location} (hk : S k) :
    h'.tree.isDirectory k = h.tree.isDirectory k :=
  FileTree.isDirectory_eq_of_shapeAt (a.shapeAt hk)

end AgreeOn

/-! ### Reading -/

/-- The places that are looked at on the way along a path, its start included. -/
def looks (h : Host) (p : Path) : List Location :=
  p.origin h.workingDirectory ::
    h.tree.visits maxLinks (p.origin h.workingDirectory) p.steps

/-- Nothing at or below a place is looked at on the way along a path. -/
def Avoids (h : Host) (p : Path) (l : Location) : Prop :=
  ∀ k ∈ h.looks p, ¬ l <+: k

theorem resolve_congr (dir : h'.workingDirectory = h.workingDirectory)
    (same : ∀ k ∈ h.tree.visits maxLinks (p.origin h.workingDirectory) p.steps,
      h'.tree.shapeAt k = h.tree.shapeAt k) : h'.resolve p = h.resolve p := by
  unfold resolve FileTree.resolve
  rw [dir, FileTree.walk_congr same]

/-- Where hosts differ only at and below a place that is not looked at, the same entry is found. -/
theorem entryAt_of_agreeOn {l : Location} (avoids : h.Avoids p l) (agree : AgreeOn (¬ l <+: ·) h h') :
    h'.entryAt p = h.entryAt p := by
  have resolved : h'.resolve p = h.resolve p :=
    resolve_congr agree.setting.workingDirectory fun k mem =>
      agree.shapeAt (avoids k (List.mem_cons_of_mem _ mem))
  unfold entryAt
  rw [resolved]
  cases there : h.resolve p with
  | error e => rfl
  | ok m =>
      obtain ⟨k, mem, below⟩ := FileTree.prefix_of_walk (resolve_eq_ok_iff.mp there).2
      have apart : ¬ l <+: m := fun inside => avoids k mem (inside.trans below)
      simp only [agree.get? m apart]

theorem openForReading_congr (same : h'.entryAt p = h.entryAt p) :
    h'.openForReading p = h.openForReading p := by
  rw [openForReading, same, openForReading]

theorem loadDocument_congr (same : h'.entryAt p = h.entryAt p) : h'.loadDocument p = h.loadDocument p := by
  rw [loadDocument, openForReading_congr same, loadDocument]

theorem loadDecoded_congr {α : Type} (d : Decoder α) (same : h'.entryAt p = h.entryAt p) :
    h'.loadDecoded p d = h.loadDecoded p d := by
  rw [loadDecoded, loadDocument_congr same, loadDecoded]

theorem device_congr (same : h'.entryAt p = h.entryAt p) : h'.device p = h.device p := by
  rw [device, same, device]

end Host

end Sandbox
