import Sandbox.Proofs.Generate.Place
import Sandbox.Proofs.Generate.Reading
import Sandbox.Proofs.Spec.Saving

/-!
What generating changes, and what of the host it depends on.

Writing the specification of an instance happens inside the directory of the instance
(`write_within`), and depends on nothing but what is there (`write_congr`). The
directory has to be in its place for that (`Host.Place`): the overlay root leads to a
directory, and neither a link nor a mount leads from there to somewhere else. Writing
for one instance leaves the others in their places (`Place.of_within`).
-/

namespace Sandbox

open Sandbox.Path Host

namespace InstanceId

variable {id other : InstanceId} {r k : Location}

/-- The location of an instance's directory, when the overlay root is at `r`. -/
def dir (id : InstanceId) (r : Location) : Location :=
  r ++ [id.name]

/-- The location of an instance's specification. -/
def spec (id : InstanceId) (r : Location) : Location :=
  id.dir r ++ [Config.specName]

/-- Nothing is in the directories of two instances at once. -/
theorem not_prefix_of_ne (differ : id ≠ other) (below : id.dir r <+: k) : ¬ other.dir r <+: k := by
  intro there
  have same := List.prefix_of_prefix_length_le below there (by simp [dir])
  have names := List.append_cancel_left (same.eq_of_length (by simp [dir]))
  exact differ (name_injective (List.cons.inj names).1)

theorem ne_spec_of_prefix (above : k <+: id.dir r) : k ≠ id.spec r := by
  intro same
  have shorter := above.length_le
  rw [same, spec, List.length_append, List.length_singleton] at shorter
  exact Nat.not_succ_le_self _ shorter

end InstanceId

namespace Host

variable {h h' h'' : Host} {root : Path} {r : Location} {id other : InstanceId}

/-- What stands at a location is not replaced by the specification of an instance. -/
def Lasting (h : Host) (r : Location) (id : InstanceId) (k : Location) : Prop :=
  k = id.spec r → h.tree.isDirectory (id.spec r) = true

theorem lasting_of_prefix {k : Location} (above : k <+: id.dir r) : h.Lasting r id k :=
  fun here => absurd here (InstanceId.ne_spec_of_prefix above)

/-- The overlay root leads to a directory, and the directory of an instance is, or can
be made, right there. Nothing on the way is replaced by the specification. -/
structure Place (h : Host) (root : Path) (r : Location) (id : InstanceId) : Prop where
  leads : h.LeadsBy (h.Lasting r id) root r
  noLink : ∀ target, h.tree.shapeAt (id.dir r) ≠ some (.link target)
  layers : h.LayersWithin (id.dir r)

/-- The hosts differ only in the directory of an instance, and nothing that a walk
could see is lost there but a specification that was replaced. -/
structure Within (h h' : Host) (r : Location) (id : InstanceId) : Prop where
  agree : AgreeOn (¬ id.dir r <+: ·) h h'
  keeps : ∀ k c, h.Lasting r id k → h.tree.shapeAt k = some c → h'.tree.shapeAt k = some c

theorem Within.refl (h : Host) (r : Location) (id : InstanceId) : Within h h r id :=
  ⟨.refl _ h, fun _ _ _ found => found⟩

namespace Place

/-- Instances keep their places when something changes in the directory of another. -/
theorem of_within (place : h.Place root r id) (there : h.Place root r other) (differ : id ≠ other)
    (within : Within h h' r other) : h'.Place root r id := by
  have untouched {k : Location} (below : id.dir r <+: k) := InstanceId.not_prefix_of_ne differ below
  have same := within.agree.isDirectory (untouched (List.prefix_append (id.dir r) [Config.specName]))
  have both : h.LeadsBy (fun k => h.Lasting r id k ∧ h.Lasting r other k) root r :=
    ⟨place.leads.resolve, place.leads.directory,
      fun k mem => ⟨place.leads.visits k mem, there.leads.visits k mem⟩⟩
  refine ⟨?_, ?_, place.layers.of_sameSetting within.agree.setting⟩
  · have kept := both.of_keeps within.agree.setting.workingDirectory fun k c seen found => by
      refine within.keeps k c ?_ found
      rcases seen with ⟨-, lasting⟩ | rfl
      · exact lasting
      · exact lasting_of_prefix (List.prefix_append k [other.name])
    apply kept.mono
    intro k seen here
    exact same.trans (seen.1 here)
  · intro target found
    rw [within.agree.shapeAt (untouched (List.prefix_refl _))] at found
    exact place.noLink target found

/-- Once the directory of an instance is made, its path leads there. -/
theorem reached (place : h.Place root r id) (taken : root.refusal? id.name = none)
    (free : (h.tree.get? (id.dir r)).all Entry.isDirectory = true) (owner : Option Owner) :
    (h.madeFor (id.dir r) owner).LeadsBy (h.Lasting r id) (root.child id.name) (id.dir r) := by
  have setting := (madeFor_agreeOn place.layers owner).setting
  have kept := place.leads.of_keeps setting.workingDirectory fun k c _ =>
    madeFor_keeps h (id.dir r) owner k c
  apply kept.child id.ordinary_name taken (isDirectory_madeFor free owner)
  · exact lasting_of_prefix (List.prefix_append r [id.name])
  · exact lasting_of_prefix (List.prefix_refl _)

/-- The specification is not on the way to a directory where it can be replaced. -/
theorem clear (owner : Option Owner)
    (file : (h.madeFor (id.dir r) owner).tree.isDirectory (id.spec r) = false) (k : Location)
    (lasting : h.Lasting r id k) : k ≠ id.spec r := by
  intro here
  have directory := FileTree.isDirectory_iff.mp (lasting here)
  have kept := madeFor_keeps h (id.dir r) owner (id.spec r) _ directory
  rw [FileTree.isDirectory_iff.mpr kept] at file
  cases file

end Place

end Host

namespace Generator

variable {g : Generator} {h h' : Host} {a : Application} {packages : List Package} {r : Location}

theorem parent?_specPath (c : Config) (id : InstanceId) :
    ((c.overlayRoot.child id.name).child Config.specName).parent? = some (c.overlayRoot.child id.name) :=
  parent?_child_child c.overlayRoot id.ordinary_name Config.ordinary_specName

theorem not_contains_specName : Config.specName.contains 0 = false := by
  decide

/-- Writing a specification: the directory is made, then the file is saved. -/
theorem write_eq (place : h.Place g.config.overlayRoot r a.instanceId) (s : Spec) :
    g.write h a s =
      let path := g.config.overlayRoot.child a.instanceId.name
      match g.config.overlayRoot.refusal? a.instanceId.name with
      | some e => (.error (.io path e), h)
      | none =>
        if (h.tree.get? (a.instanceId.dir r)).all Entry.isDirectory then
          let saved := s.save (h.madeFor (a.instanceId.dir r) (newOwner a.uid a.gid))
            (path.child Config.specName) a.uid a.gid
          (saved.1.map fun () => ⟨path.child Config.specName, s⟩, saved.2)
        else (.error (.io path (.system .alreadyExists)), h) := by
  unfold write
  rw [Config.instanceDir_eq, Config.specPath_eq,
    createDirectories_child place.leads a.instanceId.ordinary_name place.noLink]
  cases g.config.overlayRoot.refusal? a.instanceId.name with
  | some e => rfl
  | none =>
      change _ = if (h.tree.get? (r ++ [a.instanceId.name])).all Entry.isDirectory then _ else _
      by_cases free : (h.tree.get? (r ++ [a.instanceId.name])).all Entry.isDirectory = true
      · simp only [if_pos free]; rfl
      · simp only [if_neg free]

/-- Writing a specification changes nothing outside the directory of the instance. -/
theorem write_within (place : h.Place g.config.overlayRoot r a.instanceId) (s : Spec) :
    Within h (g.write h a s).2 r a.instanceId := by
  rw [write_eq place]
  dsimp only
  split
  · exact .refl h r _
  · next taken =>
      split
      · next free =>
          have made := madeFor_agreeOn place.layers (newOwner a.uid a.gid)
          have saved := Spec.save_child_agreeOn (s := s) (parent?_specPath g.config a.instanceId)
            Config.ordinary_specName not_contains_specName
            (place.reached taken free (newOwner a.uid a.gid)) (Place.clear _) a.uid a.gid
          have keeps := madeFor_keeps h (a.instanceId.dir r) (newOwner a.uid a.gid)
          constructor
          · apply made.trans
            apply saved.mono
            intro k apart here
            exact absurd (here ▸ List.prefix_append _ _) apart
          · intro k c lasting found
            have before := keeps k c found
            have same := saved.shapeAt (k := k) fun here => by
              rw [FileTree.isDirectory_iff]
              exact keeps _ _ (FileTree.isDirectory_iff.mp (lasting here))
            rw [same, before]
      · exact .refl h r _

/-- Hosts alike in the directory of an instance are written alike. -/
theorem write_congr (place : h.Place g.config.overlayRoot r a.instanceId)
    (place' : h'.Place g.config.overlayRoot r a.instanceId)
    (agree : AgreeOn (a.instanceId.dir r <+: ·) h h') (s : Spec) :
    (g.write h' a s).1 = (g.write h a s).1 ∧
      AgreeOn (a.instanceId.dir r <+: ·) (g.write h a s).2 (g.write h' a s).2 := by
  have there := agree.get? _ (List.prefix_refl (a.instanceId.dir r))
  rw [write_eq place, write_eq place', there]
  dsimp only
  split
  · exact ⟨rfl, agree⟩
  · next taken =>
      split
      · next free =>
          have free' : (h'.tree.get? (a.instanceId.dir r)).all Entry.isDirectory = true := by
            rw [there]
            exact free
          obtain ⟨result, after⟩ := Spec.save_child_congr (s := s) (parent?_specPath g.config a.instanceId)
            Config.ordinary_specName not_contains_specName
            (place.reached taken free (newOwner a.uid a.gid))
            (place'.reached taken free' (newOwner a.uid a.gid)) (Place.clear _) (Place.clear _)
            (agree.madeFor place.layers (newOwner a.uid a.gid)) (List.prefix_append _ _) a.uid a.gid
          exact ⟨congrArg (Except.map _) result, after⟩
      · exact ⟨rfl, agree⟩

/-- Generating changes nothing outside the directory of the instance. -/
theorem generate_within (place : h.Place g.config.overlayRoot r a.instanceId) (packages : List Package) :
    Within h (g.generate h a packages).2 r a.instanceId := by
  cases built : g.build h a packages with
  | error e =>
      rw [generate, built]
      exact .refl h r _
  | ok s =>
      rw [generate_of_build built]
      exact write_within place s

/-- Hosts alike in the directory of an instance and in all that is read for it give the
same result, and are alike there afterwards. -/
theorem generate_congr (place : h.Place g.config.overlayRoot r a.instanceId)
    (place' : h'.Place g.config.overlayRoot r a.instanceId)
    (agree : AgreeOn (a.instanceId.dir r <+: ·) h h')
    (same : g.build h' a packages = g.build h a packages) :
    (g.generate h' a packages).1 = (g.generate h a packages).1 ∧
      AgreeOn (a.instanceId.dir r <+: ·) (g.generate h a packages).2 (g.generate h' a packages).2 := by
  cases built : g.build h a packages with
  | error e =>
      rw [generate, generate, same, built]
      exact ⟨rfl, agree⟩
  | ok s =>
      rw [generate_of_build built, generate_of_build (same.trans built)]
      obtain ⟨result, after⟩ := write_congr place place' agree s
      exact ⟨congrArg (Stage.persist.guard ·) result, after⟩

end Generator

end Sandbox
