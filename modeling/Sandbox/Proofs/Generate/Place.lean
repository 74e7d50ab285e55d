import Sandbox.Proofs.Generate.Course
import Sandbox.Proofs.Host.Touch
import Sandbox.Proofs.Path.Child

/-!
Where the paths of an instance lead.

The directory of an instance stands below the overlay root and has the name of the
instance; in it have their places the specification, the root and the two directories that
the root is mounted with (`Config.ownNames`). As long as no link stands there
(`Host.NoOwnLink`), different instances have different places
(`Host.denotes_child_iff`, `Host.rootfsPath_injective`), and generating loses nothing that
a walk could see (`Generator.generate_extends`).
-/

namespace Sandbox

open Sandbox.Path

/-- A text that can be a segment of a path is written as an ordinary name. -/
theorem ordinary_of_isSegment {s : String} (h : isSegment s = true) : Ordinary (Utf8.encode s.toList) :=
  InstanceId.ordinary_name ⟨s, h⟩

theorem InstanceId.ordinary_of_mem {n : Name} (id : InstanceId) (ordinary : Ordinary n) :
    ∀ m ∈ [id.name, n], Ordinary m := by
  intro m mem
  simp only [List.mem_cons, List.not_mem_nil, or_false] at mem
  rcases mem with rfl | rfl
  · exact id.ordinary_name
  · exact ordinary

namespace Config

/-- The name of an instance's specification. -/
def specName : Name :=
  Utf8.encode "config.json".toList

/-- The name of the directory that an instance's root is mounted on. -/
def rootfsName : Name :=
  Utf8.encode "rootfs".toList

/-- The name of the directory that an instance's root is written to. -/
def upperName : Name :=
  Utf8.encode "upper".toList

/-- The name of the directory that the system works in. -/
def workName : Name :=
  Utf8.encode "work".toList

/-- The names of the directories that an instance's root is mounted with. -/
def rootNames : List Name :=
  [rootfsName, upperName, workName]

theorem rootfsName_mem : rootfsName ∈ rootNames := by simp [rootNames]

theorem upperName_mem : upperName ∈ rootNames := by simp [rootNames]

theorem workName_mem : workName ∈ rootNames := by simp [rootNames]

/-- The names that have a place in the directory of an instance. -/
def ownNames : List Name :=
  specName :: rootNames

theorem ordinary_of_mem_ownNames {n : Name} (own : n ∈ ownNames) : Ordinary n := by
  simp only [ownNames, rootNames, List.mem_cons, List.not_mem_nil, or_false] at own
  rcases own with rfl | rfl | rfl | rfl
  · exact ordinary_of_isSegment (s := "config.json") (by decide)
  · exact ordinary_of_isSegment (s := "rootfs") (by decide)
  · exact ordinary_of_isSegment (s := "upper") (by decide)
  · exact ordinary_of_isSegment (s := "work") (by decide)

theorem ordinary_specName : Ordinary specName :=
  ordinary_of_mem_ownNames List.mem_cons_self

theorem ordinary_of_mem_rootNames {n : Name} (mem : n ∈ rootNames) : Ordinary n :=
  ordinary_of_mem_ownNames (List.mem_cons_of_mem specName mem)

variable (c : Config) (id : InstanceId)

theorem instanceDir_eq : c.instanceDir id = c.overlayRoot.child id.name := rfl

theorem specPath_eq : c.specPath id = (c.instanceDir id).child specName := rfl

theorem rootfsPath_eq : c.rootfsPath id = (c.instanceDir id).child rootfsName := rfl

variable {n : Name}

theorem names_child (ordinary : Ordinary n) :
    ((c.instanceDir id).child n).names = c.overlayRoot.names ++ [id.name, n] := by
  rw [Path.names_child _ ordinary, instanceDir_eq, Path.names_child _ id.ordinary_name, List.append_assoc]
  rfl

theorem origin_child (ordinary : Ordinary n) (dir : Location) :
    ((c.instanceDir id).child n).origin dir = c.overlayRoot.origin dir := by
  rw [Path.origin_child _ ordinary, instanceDir_eq, Path.origin_child _ id.ordinary_name]

end Config

namespace Host

variable {c : Config} {h h' : Host} {p : Path} {l : Location} {id other : InstanceId} {n : Name}

/-- No link stands below the place that a path denotes, be it there or not. -/
def NoLinkUnder (h : Host) (p : Path) : Prop :=
  ∀ l, h.tree.Denotes (p.origin h.workingDirectory) p.names l → h.tree.NoLinkBelow l

/-- No link stands where an instance has its own places. -/
def NoOwnLink (c : Config) (h : Host) : Prop :=
  ∀ r (id : InstanceId) n, h.Denotes c.overlayRoot r → n ∈ Config.ownNames → h.tree.NoLinkAlong r [id.name, n]

theorem NoLinkUnder.noOwnLink (plain : h.NoLinkUnder c.overlayRoot) : h.NoOwnLink c :=
  fun r id n root _ => (plain r root).along [id.name, n]

/-- A place of an instance stands two names below the overlay root. -/
theorem denotes_child_iff (plain : h.NoOwnLink c) (own : n ∈ Config.ownNames) :
    h.Denotes ((c.instanceDir id).child n) l ↔ ∃ r, h.Denotes c.overlayRoot r ∧ l = r ++ [id.name, n] := by
  have ordinary := Config.ordinary_of_mem_ownNames own
  have both := id.ordinary_of_mem ordinary
  unfold Denotes
  rw [Config.names_child c id ordinary, Config.origin_child c id ordinary, FileTree.denotes_append_iff]
  constructor
  · rintro ⟨r, root, further⟩
    exact ⟨r, root, further.eq_append (plain r id n root own) both⟩
  · rintro ⟨r, root, rfl⟩
    exact ⟨r, root, (plain r id n root own).denotes both⟩

/-- Different instances have their roots at different places. -/
theorem rootfsPath_injective (plain : h.NoOwnLink c) (here : h.resolve (c.rootfsPath id) = .ok l)
    (there : h.resolve (c.rootfsPath other) = .ok l) : id = other := by
  have own : Config.rootfsName ∈ Config.ownNames := by simp [Config.ownNames, Config.rootNames]
  obtain ⟨r, root, eq⟩ := (denotes_child_iff plain own).mp (denotes_of_resolve here)
  obtain ⟨r', root', eq'⟩ := (denotes_child_iff plain own).mp (denotes_of_resolve there)
  cases root.unique root'
  have names := List.append_cancel_left (eq.symm.trans eq')
  exact InstanceId.name_injective (List.cons.inj names).1

/-- A specification stands in its place below the overlay root, so it does not take the
place of a link. -/
theorem EndsWith.noLink {dir : Location} (ends : h.EndsWith (c.specPath id) dir n) (plain : h.NoOwnLink c)
    (target : Path) : h.tree.shapeAt (dir ++ [n]) ≠ some (.link target) := by
  obtain ⟨ns, names, walked⟩ := ends.names
  have whole := Config.names_child c id Config.ordinary_specName
  rw [← Config.specPath_eq, names, show [id.name, Config.specName] = [id.name] ++ [Config.specName] from rfl,
    ← List.append_assoc] at whole
  obtain ⟨rfl, last⟩ := List.append_inj' whole rfl
  cases last
  rw [Config.specPath_eq, Config.origin_child c id Config.ordinary_specName] at walked
  obtain ⟨r, root, further⟩ := FileTree.denotes_append_iff.mp (FileTree.Denotes.of_walk walked)
  have along := plain r id Config.specName root List.mem_cons_self
  have place := further.eq_append (along.mono (List.prefix_append [id.name] [Config.specName]))
    (by simpa using id.ordinary_name)
  rw [place, List.append_assoc]
  exact along [id.name, Config.specName] target (List.cons_ne_nil _ _) (List.prefix_refl _)

/-- Whatever a walk can see stays, links neither come nor go, and nothing but files
is changed. -/
structure Extends (h h' : Host) : Prop where
  keeps : h.tree.Keeps h'.tree
  links : h.tree.SameLinks h'.tree
  setting : h.SameSetting h'

theorem Extends.trans {h'' : Host} (e : Extends h h') (e' : Extends h' h'') : Extends h h'' :=
  ⟨fun k c found => e'.keeps k c (e.keeps k c found),
    fun k target => (e'.links k target).trans (e.links k target), e.setting.trans e'.setting⟩

theorem OnlyDirectories.extends (only : OnlyDirectories h h') : Extends h h' :=
  ⟨only.tree.keeps, only.tree.sameLinks, only.setting⟩

theorem NoOwnLink.of_sameLinks (plain : h.NoOwnLink c) (links : h.tree.SameLinks h'.tree)
    (dir : h'.workingDirectory = h.workingDirectory) : h'.NoOwnLink c := by
  intro r id n root own ts target some within found
  unfold Denotes at root
  rw [dir, links.denotes_iff] at root
  exact plain r id n root own ts target some within ((links _ target).mp found)

theorem NoOwnLink.of_extends (plain : h.NoOwnLink c) (e : Extends h h') : h'.NoOwnLink c :=
  plain.of_sameLinks e.links e.setting.workingDirectory

theorem tryChangeOwner_extends (h : Host) (p : Path) (uid gid : UInt32) :
    Extends h (h.tryChangeOwner p uid gid) := by
  obtain ⟨setting, shape⟩ := tryChangeOwner_same h p uid gid
  refine ⟨?_, ?_, setting⟩
  · intro k c found
    rw [shape k, found]
  · intro k target
    rw [shape k]

/-- A file in the place of something that is neither a directory nor a link is nothing
that a walk notices. -/
theorem Holds.extends {e : Entry} (holds : h.Holds h' l e) (file : e.content.shape = .other)
    (noDirectory : h.tree.isDirectory l = false)
    (noLink : ∀ target, h.tree.shapeAt l ≠ some (.link target)) :
    Extends h h' := by
  have here : h'.tree.shapeAt l = some .other := by
    rw [FileTree.shapeAt, holds.get?, if_pos rfl, Option.map_some, file]
  have there {k : Location} (ne : k ≠ l) : h'.tree.shapeAt k = h.tree.shapeAt k := by
    rw [FileTree.shapeAt, holds.get?, if_neg ne, FileTree.shapeAt]
  refine ⟨?_, ?_, holds.setting⟩
  · intro k c found
    by_cases same : k = l
    · subst same
      cases c with
      | directory => rw [FileTree.isDirectory_iff.mpr found] at noDirectory; cases noDirectory
      | link target => exact absurd found (noLink target)
      | other => exact here
    · rw [there same, found]
  · intro k target
    by_cases same : k = l
    · subst same
      rw [here]
      constructor
      · rintro ⟨⟩
      · intro found
        exact absurd found (noLink target)
    · rw [there same]

end Host

namespace Generator

open Host

variable {g : Generator} {h h' : Host} {a : Application} {packages : List Package}

/-- Where instances have no links of their own, saving a specification loses nothing that a
walk can see, and links neither come nor go. -/
theorem save_extends {c : Config} {id : InstanceId} {s : Spec} {uid gid : UInt32}
    (plain : h.NoOwnLink c) (saved : (s.save h (c.specPath id) uid gid).1 = .ok ()) :
    h.Extends (s.save h (c.specPath id) uid gid).2 := by
  obtain ⟨dir, n, h₁, ends, -, noDirectory, holds, final⟩ := Spec.save_eq_ok saved
  rw [final]
  exact (holds.extends rfl noDirectory (ends.noLink plain)).trans (tryChangeOwner_extends h₁ _ uid gid)

end Generator

end Sandbox
