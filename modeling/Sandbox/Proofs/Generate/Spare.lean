import Sandbox.Proofs.Generate.Mounts
import Sandbox.Proofs.Host.Crossing
import Sandbox.Proofs.Host.Kernel
import Sandbox.Proofs.Spec.Reload

/-!
What becomes of specifications that are there already.

No operation on instances harms the specification of an instance, unless it writes that
very specification (`Spares`). Directories are made and handed over beside the
specifications, a specification is saved to its own place alone, and a kernel that mounts
and unmounts roots changes nothing but what is below their mount points and below the
directories that it was given. One place is an exception that cannot be helped: the way
along the overlay root's own path, where directories are made if they are missing.

What is below the mount point, the writable layer or the work directory of an overlay may
change at any time, since the system shows there what is written elsewhere
(`Host.Reshown`). So neither a specification nor a place that the paths to instances lead
through (`Config.Ways`) may stand there (`Ready`).

What is written stands in its place, handed over (`HoldsSpec`), and stays there as long
as it is spared (`HoldsSpec.of_spares`).
-/

namespace Sandbox

open Sandbox.Path Host

variable {k : Kernel} {c : Config} {h h' h'' : Host} {id other : InstanceId} {p : Path} {l q r dir : Location}
  {n : Name} {m : OverlayMount}

/-! ### Ways -/

namespace Config

/-- A place that the path to a place of some instance's own leads through. -/
def Ways (c : Config) (h : Host) (q : Location) : Prop :=
  ∃ id : InstanceId, ∃ n ∈ ownNames, h.Crosses ((c.instanceDir id).child n) q

/-- The path to an own place is the overlay root's, and goes on. -/
theorem crosses_child_iff (own : n ∈ ownNames) :
    h.Crosses ((c.instanceDir id).child n) q ↔ h.Crosses c.overlayRoot q ∨
      ∃ r, h.Denotes c.overlayRoot r ∧ h.tree.Crosses r [id.name, n] q := by
  have ordinary := ordinary_of_mem_ownNames own
  unfold Crosses Denotes
  rw [names_child c id ordinary, origin_child c id ordinary, FileTree.crosses_append_iff]

theorem Ways.of_root (id : InstanceId) (crosses : h.Crosses c.overlayRoot q) : c.Ways h q :=
  ⟨id, specName, List.mem_cons_self, (crosses_child_iff List.mem_cons_self).mpr (.inl crosses)⟩

/-- Where an instance has its own places and no link stands, the paths to them lead
through them. -/
theorem Ways.of_own {ts : List Name} (plain : h.NoOwnLink c) (root : h.Denotes c.overlayRoot r) (own : n ∈ ownNames)
    (within : ts <+: [id.name, n]) : c.Ways h (r ++ ts) :=
  ⟨id, n, own, (crosses_child_iff own).mpr (.inr ⟨r, root, (plain r id n root own).crosses
    (id.ordinary_of_mem (ordinary_of_mem_ownNames own)) (List.cons_ne_nil _ _) within⟩)⟩

/-- Through nothing else do they lead, but for what the overlay root's path leads through. -/
theorem Ways.cases (ways : c.Ways h q) (plain : h.NoOwnLink c) : h.Crosses c.overlayRoot q ∨
    ∃ (id : InstanceId), ∃ n ∈ ownNames, ∃ r ts, h.Denotes c.overlayRoot r ∧ ts <+: [id.name, n] ∧ q = r ++ ts := by
  obtain ⟨id, n, own, crosses⟩ := ways
  rcases (crosses_child_iff own).mp crosses with above | ⟨r, root, further⟩
  · exact .inl above
  · obtain ⟨ts, within, rfl⟩ := further.eq_append (plain r id n root own)
      (id.ordinary_of_mem (ordinary_of_mem_ownNames own))
    exact .inr ⟨id, n, own, r, ts, root, within, rfl⟩

end Config

/-- The paths to instances lead where they led: through the same links, and through
directories where there were some. -/
structure Host.KeepsWays (c : Config) (h h' : Host) : Prop where
  workingDirectory : h'.workingDirectory = h.workingDirectory
  privileges : h'.privileges = h.privileges
  links : ∀ q, c.Ways h q → ∀ target,
    h'.tree.shapeAt q = some (.link target) ↔ h.tree.shapeAt q = some (.link target)
  directories : ∀ q, c.Ways h q → h.tree.isDirectory q = true → h'.tree.isDirectory q = true

namespace Host.KeepsWays

theorem of_extends (e : h.Extends h') : KeepsWays c h h' where
  workingDirectory := e.setting.workingDirectory
  privileges := e.setting.privileges
  links q _ := e.links q
  directories q _ directory :=
    FileTree.isDirectory_iff.mpr (e.keeps q _ (FileTree.isDirectory_iff.mp directory))

section

variable (w : KeepsWays c h h')

include w

theorem crosses_iff (own : n ∈ Config.ownNames) :
    h'.Crosses ((c.instanceDir id).child n) q ↔ h.Crosses ((c.instanceDir id).child n) q := by
  unfold Crosses
  rw [w.workingDirectory]
  exact FileTree.SameWay.crosses_iff fun q crosses => w.links q ⟨id, n, own, crosses⟩

theorem ways_iff : c.Ways h' q ↔ c.Ways h q := by
  constructor
  · rintro ⟨id, n, own, crosses⟩
    exact ⟨id, n, own, (w.crosses_iff own).mp crosses⟩
  · rintro ⟨id, n, own, crosses⟩
    exact ⟨id, n, own, (w.crosses_iff own).mpr crosses⟩

theorem denotes_iff (own : n ∈ Config.ownNames) :
    h'.Denotes ((c.instanceDir id).child n) l ↔ h.Denotes ((c.instanceDir id).child n) l := by
  unfold Denotes
  rw [w.workingDirectory]
  exact FileTree.SameWay.denotes_iff fun q crosses => w.links q ⟨id, n, own, crosses⟩

/-- The way to the overlay root is the beginning of that to any instance. -/
theorem sameWay_root (id : InstanceId) :
    h.tree.SameWay (c.overlayRoot.origin h.workingDirectory) c.overlayRoot.names h'.tree :=
  fun q crosses => w.links q (.of_root id crosses)

theorem denotes_root_iff (id : InstanceId) : h'.Denotes c.overlayRoot r ↔ h.Denotes c.overlayRoot r := by
  unfold Denotes
  rw [w.workingDirectory]
  exact (w.sameWay_root id).denotes_iff

theorem crosses_root_iff (id : InstanceId) : h'.Crosses c.overlayRoot q ↔ h.Crosses c.overlayRoot q := by
  unfold Crosses
  rw [w.workingDirectory]
  exact (w.sameWay_root id).crosses_iff

theorem onWay_iff (id : InstanceId) : h'.OnWay c.overlayRoot q ↔ h.OnWay c.overlayRoot q := by
  unfold OnWay
  rw [w.workingDirectory]
  refine exists_congr fun ns => and_congr_right fun first => ?_
  obtain ⟨rest, whole⟩ := first
  refine FileTree.SameWay.denotes_iff fun l crosses => w.sameWay_root id l ?_
  rw [← whole]
  exact FileTree.crosses_append_iff.mpr (.inl crosses)

theorem noOwnLink (plain : h.NoOwnLink c) : h'.NoOwnLink c := by
  intro r id n root own ts target some within found
  have root := (w.denotes_root_iff id).mp root
  exact plain r id n root own ts target some within
    ((w.links _ (.of_own plain root own within) target).mp found)

/-- The path of a specification ends where it did, since a walk to a directory meets only
directories and links. -/
theorem endsWith (ends : h.EndsWith (c.specPath id) dir n) : h'.EndsWith (c.specPath id) dir n := by
  obtain ⟨accepted, ⟨ns, names, walked⟩, directory, notDot, notDotDot, short⟩ := ends
  have met := FileTree.shape_of_walk directory walked
  have way {q : Location} (mem : q ∈ h.tree.visits maxLinks ((c.specPath id).origin h.workingDirectory) ns) :
      c.Ways h q := by
    refine ⟨id, Config.specName, List.mem_cons_self, ?_⟩
    rw [← Config.specPath_eq, Crosses, names]
    exact FileTree.crosses_append_iff.mpr (.inl (.of_visits mem))
  have stays {q : Location} {s : Shape} (mem : q ∈ h.tree.visits maxLinks ((c.specPath id).origin h.workingDirectory) ns)
      (found : h.tree.shapeAt q = some s) : h'.tree.shapeAt q = some s := by
    cases s with
    | directory =>
        exact FileTree.isDirectory_iff.mp (w.directories q (way mem) (FileTree.isDirectory_iff.mpr found))
    | link target => exact (w.links q (way mem) target).mpr found
    | other => exact absurd found (met q mem)
  refine ⟨accepted, ⟨ns, names, ?_⟩, ?_, notDot, notDotDot, short⟩
  · rw [w.workingDirectory]
    exact FileTree.walk_of_keeps walked fun q mem s found => stays mem found
  · refine w.directories dir ⟨id, Config.specName, List.mem_cons_self, ?_⟩ directory
    rw [← Config.specPath_eq, Crosses, names]
    exact FileTree.crosses_append_iff.mpr (.inr ⟨dir, .of_walk walked, .here dir n []⟩)

end

theorem refl (h : Host) : KeepsWays c h h :=
  ⟨rfl, rfl, fun _ _ _ => Iff.rfl, fun _ _ directory => directory⟩

theorem trans (w : KeepsWays c h h') (w' : KeepsWays c h' h'') : KeepsWays c h h'' where
  workingDirectory := w'.workingDirectory.trans w.workingDirectory
  privileges := w'.privileges.trans w.privileges
  links q way target := (w'.links q (w.ways_iff.mpr way) target).trans (w.links q way target)
  directories q way directory := w'.directories q (w.ways_iff.mpr way) (w.directories q way directory)

end Host.KeepsWays

/-! ### Places of specifications -/

/-- Different instances have their specifications in different places. -/
theorem Config.spec_injective (plain : h.NoOwnLink c) (here : h.Denotes (c.specPath id) l)
    (there : h.Denotes (c.specPath other) q) (within : l <+: q) : id = other := by
  obtain ⟨r, root, rfl⟩ := (denotes_child_iff plain List.mem_cons_self).mp here
  obtain ⟨r', root', rfl⟩ := (denotes_child_iff plain List.mem_cons_self).mp there
  cases root.unique root'
  have names := (List.prefix_append_right_inj r).mp within
  exact InstanceId.name_injective (List.cons_prefix_cons.mp names).1

namespace Config

/-- A place is neither at nor below that of any specification. -/
def OffSpecs (c : Config) (h : Host) (q : Location) : Prop :=
  ∀ id l, h.Denotes (c.specPath id) l → ¬ l <+: q

/-- A place is off the specifications, and no path to an instance leads through it. -/
def Free (c : Config) (h : Host) (q : Location) : Prop :=
  ¬ c.Ways h q ∧ c.OffSpecs h q

/-- An overlay is clear of instances: what may change while it is mounted is free, and what
is written is not written at a specification. -/
structure Clear (c : Config) (h : Host) (m : OverlayMount) : Prop where
  below : ∀ l ∈ [m.point, m.upper, m.work], ∀ q : Location, q.IsBelow l → c.Free h q
  upper : c.OffSpecs h m.upper

/-- The path of the overlay root leads through nothing below the directories that the roots
of instances are mounted with. -/
def Apart (c : Config) (h : Host) : Prop :=
  ∀ r (id : InstanceId) n (q : Location), h.Denotes c.overlayRoot r → n ∈ rootNames → h.Crosses c.overlayRoot q →
    ¬ q.IsBelow (r ++ [id.name, n])

theorem Apart.of_no_link (noLink : ∀ l target, h.tree.shapeAt l ≠ some (.link target))
    (ordinary : ∀ n ∈ c.overlayRoot.names, Ordinary n) : c.Apart h := by
  intro r id n q root _ crosses below
  cases root.eq_append (fun _ target _ _ => noLink _ target) ordinary
  obtain ⟨ts, within, rfl⟩ := crosses.eq_append (fun _ target _ _ => noLink _ target) ordinary
  have longer := below.1.length_le
  have shorter := within.length_le
  simp only [List.length_append, List.length_cons] at longer
  omega

theorem specName_not_mem_rootNames : specName ∉ rootNames := by decide

/-- Names along those of a directory that a root is mounted with lead off the
specifications. -/
theorem offSpecs_of_within {ts : List Name} (plain : h.NoOwnLink c) (root : h.Denotes c.overlayRoot r)
    (own : n ∈ rootNames) (within : ts <+: [id.name, n]) : c.OffSpecs h (r ++ ts) := by
  intro other l denotes below
  obtain ⟨r', root', rfl⟩ := (denotes_child_iff plain List.mem_cons_self).mp denotes
  cases root.unique root'
  have names := ((List.prefix_append_right_inj r).mp below).trans within
  have last := (List.cons_prefix_cons.mp (List.cons_prefix_cons.mp names).2).1
  exact specName_not_mem_rootNames (last ▸ own)

end Config

/-- A path is that of the directory of an instance, or of one that its root is mounted
with. -/
def Config.Beside (c : Config) (p : Path) : Prop :=
  ∃ id : InstanceId, ∃ n ∈ rootNames, ∃ ns, ns <+: [id.name, n] ∧ segmentsBelow c.overlayRoot p = .ok ns

theorem Config.beside_instanceDir (c : Config) (id : InstanceId) : c.Beside (c.instanceDir id) :=
  ⟨id, rootfsName, List.mem_cons_self, [id.name], List.prefix_append _ _,
    segmentsBelow_child c.overlayRoot id.ordinary_name⟩

theorem Config.beside_child (c : Config) (id : InstanceId) (own : n ∈ rootNames) :
    c.Beside ((c.instanceDir id).child n) := by
  refine ⟨id, n, own, [id.name, n], List.prefix_refl _, ?_⟩
  have ordinary := ordinary_of_mem_ownNames (List.mem_cons_of_mem specName own)
  have components : ((c.instanceDir id).child n).components =
      c.overlayRoot.components ++ [.normal id.name, .normal n] := by
    rw [components_child _ ordinary, Config.instanceDir_eq, components_child _ id.ordinary_name,
      List.append_assoc]
    rfl
  rw [segmentsBelow, below?, stripPrefix?_eq_some_iff.mpr components]
  rfl

/-- Names below the overlay root that lead to no specification lead off them all. -/
theorem Host.Passes.offSpecs {ns : List Name} (passes : h.Passes c.overlayRoot ns q) (plain : h.NoOwnLink c)
    (own : n ∈ Config.rootNames) (within : ns <+: [id.name, n]) : c.OffSpecs h q := by
  obtain ⟨ms, -, taken, whole⟩ := passes
  obtain ⟨r, root, further⟩ := FileTree.denotes_append_iff.mp whole
  have inside := taken.trans within
  have mem := List.mem_cons_of_mem Config.specName own
  have along : h.tree.NoLinkAlong r ms := (plain r id n root mem).mono inside
  have place : q = r ++ ms := further.eq_append along fun s mem' =>
    id.ordinary_of_mem (Config.ordinary_of_mem_ownNames mem) s (inside.subset mem')
  exact place ▸ Config.offSpecs_of_within plain root own inside

/-! ### Sparing specifications -/

/-- Instances have no links of their own, files can be handed over, and what mounts may
change is clear of instances. -/
structure Ready (c : Config) (h : Host) : Prop where
  plain : h.NoOwnLink c
  allowed : h.privileges.changeOwner = true
  apart : c.Apart h
  clear : ∀ m ∈ h.mounts, c.Clear h m

/-- What is below a directory that a root is mounted with is free. -/
theorem Ready.free (ready : Ready c h) (root : h.Denotes c.overlayRoot r) (own : n ∈ Config.rootNames)
    (below : q.IsBelow (r ++ [id.name, n])) : c.Free h q := by
  constructor
  · intro way
    rcases way.cases ready.plain with above | ⟨other, n', -, r', ts, root', within, rfl⟩
    · exact ready.apart r id n q root own above below
    · cases root.unique root'
      have inside := (List.prefix_append_right_inj r).mp below.1
      have same := inside.eq_of_length_le (by simpa using within.length_le)
      exact below.2 (by rw [same])
  · intro other l denotes above
    obtain ⟨r', root', rfl⟩ := (denotes_child_iff ready.plain List.mem_cons_self).mp denotes
    cases root.unique root'
    -- Both the specification and the directory stand above the place, two names below the root.
    have same : r ++ [other.name, Config.specName] = r ++ [id.name, n] :=
      (List.prefix_of_prefix_length_le above below.1 (by simp)).eq_of_length (by simp)
    have last := (List.cons.inj (List.cons.inj (List.append_cancel_left same)).2).1
    exact Config.specName_not_mem_rootNames (last ▸ own)

/-- From one host to the next, the specifications of some instances are spared: all that
stands at and below their places stays, and nothing comes there except on the way along
the path of the overlay root. -/
structure Spares (c : Config) (P : InstanceId → Prop) (h h' : Host) : Prop where
  ways : h.KeepsWays c h'
  mounts : ∀ m ∈ h'.mounts, m ∈ h.mounts ∨ c.Clear h m
  specs : ∀ id, P id → ∀ l q, h.Denotes (c.specPath id) l → l <+: q →
    (h.OnWay c.overlayRoot q → (h.tree.get? q).isSome = true) → h'.tree.get? q = h.tree.get? q

/-- What is free and clear stays so while the ways are kept. -/
theorem Host.KeepsWays.offSpecs_iff (w : h.KeepsWays c h') : c.OffSpecs h' q ↔ c.OffSpecs h q :=
  forall_congr' fun _ => forall_congr' fun _ => imp_congr (w.denotes_iff List.mem_cons_self) Iff.rfl

theorem Host.KeepsWays.clear_iff (w : h.KeepsWays c h') : c.Clear h' m ↔ c.Clear h m := by
  constructor
  · rintro ⟨below, upper⟩
    exact ⟨fun l mem q inside => (below l mem q inside).imp (mt w.ways_iff.mpr) w.offSpecs_iff.mp,
      w.offSpecs_iff.mp upper⟩
  · rintro ⟨below, upper⟩
    exact ⟨fun l mem q inside => (below l mem q inside).imp (mt w.ways_iff.mp) w.offSpecs_iff.mpr,
      w.offSpecs_iff.mpr upper⟩

namespace Spares

variable {P Q : InstanceId → Prop}

theorem refl (h : Host) : Spares c P h h :=
  ⟨.refl h, fun _ mem => .inl mem, fun _ _ _ _ _ _ _ => rfl⟩

theorem trans (s : Spares c P h h') (s' : Spares c P h' h'') : Spares c P h h'' where
  ways := s.ways.trans s'.ways
  mounts m mem := by
    rcases s'.mounts m mem with before | clear
    · exact s.mounts m before
    · exact .inr (s.ways.clear_iff.mp clear)
  specs id spared l q denotes within there := by
    have first := s.specs id spared l q denotes within there
    have denotes := (s.ways.denotes_iff List.mem_cons_self).mpr denotes
    refine (s'.specs id spared l q denotes within fun onWay => ?_).trans first
    rw [first]
    exact there ((s.ways.onWay_iff id).mp onWay)

theorem mono (s : Spares c P h h') (sub : ∀ id, Q id → P id) : Spares c Q h h' :=
  ⟨s.ways, s.mounts, fun id spared => s.specs id (sub id spared)⟩

theorem ready (s : Spares c P h h') (ready : Ready c h) : Ready c h' where
  plain := s.ways.noOwnLink ready.plain
  allowed := by rw [s.ways.privileges, ready.allowed]
  apart r id n q root own crosses :=
    ready.apart r id n q ((s.ways.denotes_root_iff id).mp root) own ((s.ways.crosses_root_iff id).mp crosses)
  clear m mem := by
    rcases s.mounts m mem with old | clear
    · exact s.ways.clear_iff.mpr (ready.clear m old)
    · exact s.ways.clear_iff.mpr clear

/-- Where nothing has changed but what is free, all specifications are spared. -/
theorem of_free (dir : h'.workingDirectory = h.workingDirectory) (privileges : h'.privileges = h.privileges)
    (mounts : ∀ m ∈ h'.mounts, m ∈ h.mounts ∨ c.Clear h m)
    (same : ∀ q, ¬ c.Free h q → h'.tree.get? q = h.tree.get? q) : Spares c P h h' where
  ways := by
    have kept {q : Location} (way : c.Ways h q) : h'.tree.get? q = h.tree.get? q := same q fun free => free.1 way
    refine ⟨dir, privileges, fun q way target => ?_, fun q way directory => ?_⟩
    · rw [FileTree.shapeAt, kept way, FileTree.shapeAt]
    · rwa [FileTree.isDirectory, kept way]
  mounts := mounts
  specs id _ l q denotes within _ := same q fun free => free.2 id l denotes within

end Spares

variable {P : InstanceId → Prop}

/-- Directories that are made on the way to the overlay root or off the specifications,
and handed over off the specifications, spare them. -/
theorem Host.Touches.spares {M O : Location → Prop} (touches : h.Touches M O h')
    (made : ∀ q, M q → h.OnWay c.overlayRoot q ∨ c.OffSpecs h q) (owned : ∀ q, O q → c.OffSpecs h q) :
    Spares c P h h' where
  ways := .of_extends touches.onlyDirectories.extends
  mounts m mem := .inl (touches.setting.mounts ▸ mem)
  specs id _ l q denotes within there := by
    refine touches.tree.get?_eq (fun absent may => ?_) fun own => owned q own id l denotes within
    rcases made q may with onWay | off
    · have some := there onWay
      rw [absent] at some
      cases some
    · exact off id l denotes within

theorem createDirectories_spares (ready : Ready c h) (beside : c.Beside p) (uid gid : UInt32) :
    Spares c P h (createDirectories h c.overlayRoot p uid gid).2 := by
  obtain ⟨id, n, own, ns, within, below⟩ := beside
  have off {q : Location} (passes : h.Passes c.overlayRoot ns q) : c.OffSpecs h q :=
    passes.offSpecs ready.plain own within
  refine (createDirectories_touches below h uid gid).spares ?_ ?_
  · rintro q (onWay | passes)
    · exact .inl onWay
    · exact .inr (off passes)
  · rintro q ⟨l, passes, rfl | ⟨m, mem, -, rfl⟩⟩
    · exact off passes
    · exact (ready.clear m mem).upper

theorem createAll_spares (ready : Ready c h) {ps : List Path} (beside : ∀ p ∈ ps, c.Beside p) (uid gid : UInt32) :
    Spares c P h (createAll c.overlayRoot uid gid h ps).2 := by
  induction ps generalizing h with
  | nil => exact .refl h
  | cons p ps ih =>
      have first : Spares c P h (createDirectories h c.overlayRoot p uid gid).2 :=
        createDirectories_spares ready (beside p List.mem_cons_self) uid gid
      rw [createAll]
      split
      · next h' made => rw [made] at first; exact first
      · next h' made =>
          rw [made] at first
          exact first.trans (ih (first.ready ready) fun q mem => beside q (List.mem_cons_of_mem p mem))

/-! ### Mounting -/

/-- The system may show other things below the mount points of overlays, and below their
writable layers and work directories. -/
structure Host.Reshown (h h' : Host) : Prop where
  setting : h.SameSetting h'
  elsewhere : ∀ q, (∀ m ∈ h.mounts, ∀ l ∈ [m.point, m.upper, m.work], ¬ q.IsBelow l) →
    h'.tree.get? q = h.tree.get? q

theorem Host.Reshown.insert (mounted : m ∈ h.mounts) (below : l.IsBelow m.point) (e : Entry) :
    h.Reshown { h with tree := h.tree.insert l e } where
  setting := ⟨rfl, rfl, rfl⟩
  elsewhere _ outside := FileTree.get?_insert_of_ne h.tree e fun same =>
    outside m mounted m.point List.mem_cons_self (same ▸ below)

theorem Host.Reshown.spares (reshown : h.Reshown h') (ready : Ready c h) : Spares c P h h' := by
  refine .of_free reshown.setting.workingDirectory reshown.setting.privileges
    (fun m mem => .inl (reshown.setting.mounts ▸ mem)) fun q occupied => ?_
  exact reshown.elsewhere q fun m mem l part below => occupied ((ready.clear m mem).below l part q below)

/-- Where a kernel works for an instance is free. -/
theorem Ready.free_of_workedIn (ready : Ready c h) {w : Location}
    (work : h.resolve ((c.instanceDir id).childText "work") = .ok w) (worked : h.WorkedIn w q) : c.Free h q := by
  rcases worked with below | ⟨⟨m, mem, below⟩, -⟩
  · obtain ⟨r, root, rfl⟩ :=
      (denotes_child_iff ready.plain (List.mem_cons_of_mem _ Config.workName_mem)).mp (denotes_of_resolve work)
    exact ready.free root Config.workName_mem below
  · exact (ready.clear m mem).below m.point List.mem_cons_self q below

section

variable {layers : List Path} (legible : (Layout.ofInstance c.overlayRoot id layers).Legible)

include legible

theorem Host.Mounts.spares (ready : Ready c h)
    (mounts : h.Mounts (Layout.ofInstance c.overlayRoot id layers).options (c.rootfsPath id) m h') :
    Spares c P h h' := by
  obtain ⟨-, upper, work⟩ := mounts.layers _ legible rfl
  have place {n : Name} {l : Location} (own : n ∈ Config.rootNames)
      (there : h.resolve ((c.instanceDir id).child n) = .ok l) :
      c.OffSpecs h l ∧ ∀ q : Location, q.IsBelow l → c.Free h q := by
    obtain ⟨r, root, rfl⟩ :=
      (denotes_child_iff ready.plain (List.mem_cons_of_mem _ own)).mp (denotes_of_resolve there)
    exact ⟨Config.offSpecs_of_within ready.plain root own (List.prefix_refl _), fun q => ready.free root own⟩
  have atPoint := place Config.rootfsName_mem mounts.point
  have atUpper := place Config.upperName_mem upper
  have atWork := place Config.workName_mem work
  have clear : c.Clear h m := ⟨by simpa using ⟨atPoint.2, atUpper.2, atWork.2⟩, atUpper.1⟩
  refine .of_free mounts.workingDirectory mounts.privileges ?_ fun q occupied => ?_
  · rw [mounts.mounts]
    exact List.forall_mem_cons.mpr ⟨.inr clear, fun m mem => .inl mem⟩
  · exact mounts.elsewhere q (fun worked => occupied (ready.free_of_workedIn work worked))
      fun below => occupied (atPoint.2 q below)

theorem Host.Refuses.spares (ready : Ready c h)
    (refuses : h.Refuses (Layout.ofInstance c.overlayRoot id layers).options h') : Spares c P h h' := by
  refine .of_free refuses.setting.workingDirectory refuses.setting.privileges
    (fun m mem => .inl (refuses.setting.mounts ▸ mem)) fun q occupied => ?_
  rcases refuses.elsewhere with same | ⟨w, work, elsewhere⟩
  · exact same q
  · exact elsewhere q fun worked => occupied (ready.free_of_workedIn (work _ legible rfl) worked)

end

theorem Host.Unmounts.spares (ready : Ready c h) (unmounts : h.Unmounts p m h') : Spares c P h h' := by
  refine .of_free unmounts.workingDirectory unmounts.privileges (fun m mem => .inl (unmounts.mounts_subset mem))
    fun q occupied => ?_
  exact unmounts.elsewhere q fun below =>
    occupied ((ready.clear m unmounts.mem).below m.point List.mem_cons_self q below)

theorem Layout.making_spares (ready : Ready c h) (id : InstanceId) (layers : List Path) (uid gid : UInt32)
    {outcome : Except Error Unit}
    (run : (Layout.ofInstance c.overlayRoot id layers).making c.overlayRoot uid gid h = (outcome, h')) :
    Spares c P h h' := by
  have made : Spares c P h ((Layout.ofInstance c.overlayRoot id layers).making c.overlayRoot uid gid h).2 := by
    refine createAll_spares ready ?_ uid gid
    intro p mem
    simp only [List.mem_cons, List.not_mem_nil, or_false] at mem
    rcases mem with rfl | rfl | rfl
    · exact c.beside_child id Config.rootfsName_mem
    · exact c.beside_child id Config.workName_mem
    · exact c.beside_child id Config.upperName_mem
  rwa [run] at made

theorem mountRoot_spares (lawful : k.Lawful) (ready : Ready c h) {id : InstanceId} {layers : List Path}
    (legible : layers ≠ [] → (Layout.ofInstance c.overlayRoot id layers).Legible) {uid gid : UInt32}
    {result : Except Error MountedRoot} (run : mountRoot h c.overlayRoot id layers uid gid k = (result, h')) :
    Spares c P h h' := by
  cases result with
  | error e =>
      rcases mountRoot_of_error run with rfl | ⟨_, made⟩ | ⟨some, h₁, _, made, refused⟩
      · exact .refl h'
      · exact Layout.making_spares ready id layers uid gid made
      · have spares : Spares c P h h₁ := Layout.making_spares ready id layers uid gid made
        exact spares.trans ((lawful.refuses refused).spares (legible some) (spares.ready ready))
  | ok root =>
      obtain ⟨-, some, h₁, made, mounted⟩ := mountRoot_eq_ok run
      have spares : Spares c P h h₁ := Layout.making_spares ready id layers uid gid made
      obtain ⟨m, mounts⟩ := lawful.mounts mounted
      exact spares.trans (mounts.spares (legible some) (spares.ready ready))

theorem MountedRoot.giveUp_spares (lawful : k.Lawful) (ready : Ready c h) (r : MountedRoot) :
    Spares c P h (r.giveUp h k) := by
  rcases r.giveUp_cases h k with unmounted | ⟨-, same⟩
  · obtain ⟨m, unmounts⟩ := lawful.unmounts unmounted
    exact unmounts.spares ready
  · rw [same]
    exact .refl h

/-! ### Writing -/

/-- The specification of an application's instance stands in its place, handed over. -/
def HoldsSpec (c : Config) (h : Host) (a : Application) (s : Spec) : Prop :=
  ∃ dir n, h.EndsWith (c.specPath a.instanceId) dir n ∧
    h.tree.get? (dir ++ [n]) = some { s.fileEntry with owner := handOver .root a.uid a.gid }

variable {a : Application} {s : Spec}

/-- A specification stands as long as it is spared. -/
theorem HoldsSpec.of_spares (holds : HoldsSpec c h a s) (spares : Spares c P h h') (spared : P a.instanceId) :
    HoldsSpec c h' a s := by
  obtain ⟨dir, n, ends, found⟩ := holds
  refine ⟨dir, n, spares.ways.endsWith ends, ?_⟩
  have denotes : h.Denotes (c.specPath a.instanceId) (dir ++ [n]) := ends.denotes fun target => by
    rw [FileTree.shapeAt, found]
    rintro ⟨⟩
  exact (spares.specs _ spared _ _ denotes (List.prefix_refl _) fun _ => by rw [found]; rfl).trans found

theorem HoldsSpec.entryAt (holds : HoldsSpec c h a s) :
    h.entryAt (c.specPath a.instanceId) = .ok { s.fileEntry with owner := handOver .root a.uid a.gid } := by
  obtain ⟨dir, n, ends, found⟩ := holds
  have shape : h.tree.shapeAt (dir ++ [n]) = some .other := by
    rw [FileTree.shapeAt, found]
    rfl
  have trailing : (c.specPath a.instanceId).hasTrailingSeparator = false :=
    hasTrailingSeparator_child _ Config.ordinary_specName
  rw [Host.entryAt, ends.resolve shape (by simp) (by simp [trailing])]
  simp only [found]

/-- A specification that is saved stands in its place, and those of all other instances
are spared. -/
theorem save_spares (ready : Ready c h)
    (saved : (s.save h (c.specPath a.instanceId) a.uid a.gid).1 = .ok ()) :
    Spares c (· ≠ a.instanceId) h (s.save h (c.specPath a.instanceId) a.uid a.gid).2 ∧
      HoldsSpec c (s.save h (c.specPath a.instanceId) a.uid a.gid).2 a s := by
  have straight : h.Straight (c.specPath a.instanceId) := fun dir n target ends link =>
    absurd link (ends.noLink ready.plain target)
  have after := Generator.save_extends ready.plain saved
  obtain ⟨dir, n, h₁, ends, ends₁, -, holds, final⟩ := Spec.save_eq_handOverAt saved straight
  have here : h₁.tree.get? (dir ++ [n]) = some s.fileEntry := by rw [holds.get?, if_pos rfl]
  have allowed : h₁.privileges.changeOwner = true := by rw [holds.setting.privileges, ready.allowed]
  have entries (q : Location) : (s.save h (c.specPath a.instanceId) a.uid a.gid).2.tree.get? q =
      if q = dir ++ [n] then some { s.fileEntry with owner := handOver .root a.uid a.gid } else h.tree.get? q := by
    rw [final, get?_handOverAt here allowed, holds.get?]
    split <;> rfl
  constructor
  · refine ⟨.of_extends after, fun m mem => .inl (after.setting.mounts ▸ mem), ?_⟩
    intro id differs l q denotes within _
    rw [entries, if_neg]
    rintro rfl
    exact differs (Config.spec_injective ready.plain denotes (ends.denotes (ends.noLink ready.plain)) within)
  · exact ⟨dir, n, (KeepsWays.of_extends after).endsWith ends, by rw [entries, if_pos rfl]⟩

namespace Generator

variable {g : Generator} {packages : List Package}

/-- Writing a specification spares all others, and this one too if it fails. -/
theorem write_spares (ready : Ready g.config h) {result : Except Error Generated}
    (run : g.write h a s = (result, h')) :
    Spares g.config (fun id => result.isOk = true → id ≠ a.instanceId) h h' ∧
      (result.isOk = true → HoldsSpec g.config h' a s) := by
  have made : Spares g.config (fun _ => True) h
      (createDirectories h g.config.overlayRoot (g.config.instanceDir a.instanceId) a.uid a.gid).2 :=
    createDirectories_spares ready (g.config.beside_instanceDir a.instanceId) a.uid a.gid
  unfold write at run
  dsimp only at run
  split at run
  case h_1 e h₁ created =>
    cases run
    rw [created] at made
    exact ⟨made.mono fun _ _ => trivial, nofun⟩
  case h_2 h₁ created =>
  rw [created] at made
  obtain ⟨rfl, rfl⟩ := Prod.mk.inj run
  cases saved : (s.save h₁ (g.config.specPath a.instanceId) a.uid a.gid).1 with
  | error e =>
      rw [Spec.save_of_error saved]
      exact ⟨made.mono fun _ _ => trivial, nofun⟩
  | ok u =>
      obtain ⟨others, holds⟩ := save_spares (made.ready ready) saved
      refine ⟨(made.mono fun _ _ => trivial).trans (others.mono fun id differs => differs rfl), fun _ => holds⟩

/-- So does generating. -/
theorem generate_spares (ready : Ready g.config h) {result : Except StageFailure Generated}
    (run : g.generate h a packages = (result, h')) :
    Spares g.config (fun id => result.isOk = true → id ≠ a.instanceId) h h' ∧
      ∀ w, result = .ok w → HoldsSpec g.config h' a w.spec := by
  cases result with
  | error e =>
      rcases generate_of_error run with ⟨-, rfl⟩ | ⟨-, s, cause, written⟩
      · exact ⟨.refl _, nofun⟩
      · exact ⟨(write_spares ready written).1.mono fun _ _ => nofun, nofun⟩
  | ok w =>
      obtain ⟨s, -, written⟩ := generate_eq_ok run
      obtain ⟨spares, holds⟩ := write_spares ready written
      obtain ⟨-, -, -, -, rfl⟩ := write_eq_ok written
      refine ⟨spares, ?_⟩
      rintro w ⟨⟩
      exact holds rfl

/-- So does preparing, if the options of the mount are legible. -/
theorem prepare_spares (lawful : k.Lawful) (ready : Ready g.config h) {manifest : Path}
    (legible : ∀ packages, Package.loadManifest h manifest = .ok packages → packages ≠ [] →
      (Layout.ofInstance g.config.overlayRoot a.instanceId (packages.map Package.mountPath)).Legible)
    {result : Except StageFailure Prepared} (run : g.prepare h a manifest k = (result, h')) :
    Spares g.config (fun id => result.isOk = true → id ≠ a.instanceId) h h' ∧
      ∀ p, result = .ok p → HoldsSpec g.config h' a p.spec := by
  have mounting {packages : List Package} {r : Except Error MountedRoot} {h₁ : Host}
      (loaded : Package.loadManifest h manifest = .ok packages)
      (mounted : mountRoot h g.config.overlayRoot a.instanceId (packages.map Package.mountPath) a.uid a.gid k = (r, h₁)) :
      Spares g.config (fun _ => True) h h₁ := by
    refine mountRoot_spares lawful ready (fun some => legible packages loaded fun none => some ?_) mounted
    rw [none, List.map_nil]
  cases course_of_prepare run with
  | unread => exact ⟨.refl _, nofun⟩
  | unmounted loaded unmounted => exact ⟨(mounting loaded unmounted).mono fun _ _ => trivial, nofun⟩
  | @givenUp _ root _ _ h₂ loaded mounted ungenerated =>
      have first := mounting loaded mounted
      obtain ⟨spares, -⟩ := generate_spares (first.ready ready) ungenerated
      have second : Spares g.config (fun _ => True) h h₂ := first.trans (spares.mono fun _ _ => nofun)
      have third := second.trans (root.giveUp_spares lawful (second.ready ready))
      exact ⟨third.mono fun _ _ => trivial, nofun⟩
  | ready loaded mounted generated =>
      have first := mounting loaded mounted
      obtain ⟨spares, holds⟩ := generate_spares (first.ready ready) generated
      refine ⟨(first.mono fun _ _ => trivial).trans spares, ?_⟩
      rintro p ⟨⟩
      exact holds _ rfl

end Generator

end Sandbox
