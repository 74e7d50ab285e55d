import Mathlib.Data.List.Infix
import Sandbox.Proofs.Generate.Place
import Sandbox.Proofs.Generate.Sample
import Sandbox.Proofs.Host.Touch

/-!
Directories stay inside their base, as long as no link stands below it.

Whatever `createDirectories` returns, it makes directories only below the base and on
the way to it, and hands over only what stands below it (`createDirectories_staysInside`).
The names below the base are checked as they are written. A link among them is followed
all the same, out of the base or back to the base itself (`createDirectories_escapes`).
-/

namespace Sandbox

open Host

variable {h h' : Host} {base p : Path} {l k : Location} {ns : List Name}

namespace Host

/-- A place is strictly below the one that a path denotes. -/
def Inside (h : Host) (base : Path) (k : Location) : Prop :=
  ∃ b, h.Denotes base b ∧ b <+: k ∧ k ≠ b

/-- The owner of what stands at a place; nothing belongs to nobody but the system. -/
def ownerOf (h : Host) (k : Location) : Owner :=
  (h.tree.get? k).elim .root Entry.owner

/-- What becomes of a host stays inside a base. -/
structure StaysInside (h : Host) (base : Path) (h' : Host) : Prop where
  /-- What stood somewhere stands there still, with its content and its mode. -/
  kept : ∀ k e, h.tree.get? k = some e → ∃ owner, h'.tree.get? k = some { e with owner }
  /-- What is new is a directory below the base, the base itself or on the way to it. -/
  made : ∀ k e, h.tree.get? k = none → h'.tree.get? k = some e →
    e.isDirectory = true ∧ (h.Inside base k ∨ h.OnWay base k)
  /-- What has another owner is a directory below the base, or the layer that an overlay
  mounted on one is written to. -/
  owned : ∀ k, h'.ownerOf k ≠ h.ownerOf k →
    h'.tree.isDirectory k = true ∧ ∃ l, h.Inside base l ∧ h.OwnerAt l k

theorem StaysInside.refl (h : Host) (base : Path) : h.StaysInside base h where
  kept k e found := ⟨e.owner, found⟩
  made k e absent found := by rw [absent] at found; cases found
  owned k differs := absurd rfl differs

/-- Below a base without links, ordinary names lead strictly below it. -/
theorem Passes.inside (passes : h.Passes base ns k) (plain : h.NoLinkUnder base)
    (ordinary : ∀ n ∈ ns, Path.Ordinary n) : h.Inside base k := by
  obtain ⟨ms, some, taken, denotes⟩ := passes
  obtain ⟨b, whole, further⟩ := FileTree.denotes_append_iff.mp denotes
  have place : k = b ++ ms :=
    further.eq_append ((plain b whole).along ms) fun n mem => ordinary n (taken.subset mem)
  refine ⟨b, whole, place ▸ List.prefix_append b ms, ?_⟩
  rw [place]
  simpa using some

/-- New directories and new owners at such places stay inside the base. -/
theorem Touches.staysInside {M O : Location → Prop} (touches : h.Touches M O h')
    (made : ∀ k, M k → h.Inside base k ∨ h.OnWay base k)
    (owned : ∀ k, O k → ∃ l, h.Inside base l ∧ h.OwnerAt l k) : h.StaysInside base h' := by
  constructor
  case kept =>
    intro k e before
    have touched := touches.tree k
    rw [before] at touched
    generalize h'.tree.get? k = after at touched ⊢
    cases touched with
    | same => exact ⟨e.owner, rfl⟩
    | owned owner _ _ => exact ⟨owner, rfl⟩
  case made =>
    intro k e before after
    have touched := touches.tree k
    rw [before, after] at touched
    cases touched with
    | made may => exact ⟨rfl, made k may⟩
    | madeOwned _ may _ => exact ⟨rfl, made k may⟩
  case owned =>
    intro k differs
    have touched := touches.tree k
    unfold ownerOf at differs
    cases before : h.tree.get? k with
    | none =>
        rw [before] at touched differs
        cases after : h'.tree.get? k with
        | none => rw [after] at differs; exact absurd rfl differs
        | some e =>
            rw [after] at touched differs
            rw [FileTree.isDirectory_of_get? after]
            cases touched with
            | made => exact absurd rfl differs
            | madeOwned _ _ own => exact ⟨rfl, owned k own⟩
    | some e =>
        rw [before] at touched differs
        cases after : h'.tree.get? k with
        | none => rw [after] at touched; cases touched
        | some e' =>
            rw [after] at touched differs
            rw [FileTree.isDirectory_of_get? after]
            cases touched with
            | same => exact absurd rfl differs
            | owned _ own directory => exact ⟨directory, owned k own⟩

end Host

/-- Making directories below a base stays inside it, whatever else stands in the tree
and whether it succeeds or not, when no link stands below the base. -/
theorem createDirectories_staysInside (h : Host) (base p : Path) (uid gid : UInt32)
    (plain : h.NoLinkUnder base) : h.StaysInside base (createDirectories h base p uid gid).2 := by
  cases below : segmentsBelow base p with
  | error e =>
      rw [createDirectories, below]
      exact .refl h base
  | ok ns =>
      have inside {k : Location} (passes : h.Passes base ns k) : h.Inside base k :=
        passes.inside plain (Path.ordinary_of_segmentsBelow below)
      refine (createDirectories_touches below h uid gid).staysInside ?_ ?_
      · rintro k (onWay | passes)
        · exact .inr onWay
        · exact .inl (inside passes)
      · rintro k ⟨l, passes, kept⟩
        exact ⟨l, inside passes, kept⟩

/-- Two directories are made for an instance, and both are handed over. -/
theorem createDirectories_staysInside_sample :
    let h := Sample.host []
    let base : Path := .ofString "/instances"
    let made := createDirectories h base (.ofString "/instances/first/rootfs") 1000 1000
    h.NoLinkUnder base ∧ made.1 = .ok () ∧
      made.2.ownerOf [Sample.name "instances", Sample.name "first"] = ⟨1000, 1000⟩ ∧
      made.2.ownerOf [Sample.name "instances"] = .root ∧ h.StaysInside base made.2 := by
  intro h base made
  have plain : h.NoLinkUnder base := by
    intro l _ k target _ _
    exact FileTree.shapeAt_ne_link (by decide +kernel) k target
  exact ⟨plain, by decide +kernel, by decide +kernel, by decide +kernel,
    createDirectories_staysInside h base (.ofString "/instances/first/rootfs") 1000 1000 plain⟩

/-- A link below the base is followed. One that leads out of it has a directory made and
handed over elsewhere; one that leads to the base has the base itself handed over. -/
theorem createDirectories_escapes :
    let link (target : String) : Entry := ⟨.link (.ofString target), .root, 0o777⟩
    let h := Sample.host [([Sample.name "instances", Sample.name "out"], link "../layer"),
      ([Sample.name "instances", Sample.name "self"], link ".")]
    let base : Path := .ofString "/instances"
    let out := (createDirectories h base (.ofString "/instances/out/made") 1000 1000).2
    let self := (createDirectories h base (.ofString "/instances/self") 1000 1000).2
    out.tree.get? [Sample.name "layer", Sample.name "made"] =
        some { Entry.newDirectory with owner := ⟨1000, 1000⟩ } ∧
      ¬ h.StaysInside base out ∧
      h.Denotes base [Sample.name "instances"] ∧ self.ownerOf [Sample.name "instances"] = ⟨1000, 1000⟩ ∧
      ¬ h.StaysInside base self := by
  intro link h base out self
  have place : h.Denotes base [Sample.name "instances"] := denotes_of_resolve (by decide +kernel)
  have below {k : Location} (inside : h.Inside base k) : [Sample.name "instances"] <+: k ∧ k ≠ [Sample.name "instances"] := by
    obtain ⟨b, denotes, rest⟩ := inside
    rwa [denotes.unique place] at rest
  have outside : out.tree.get? [Sample.name "layer", Sample.name "made"] =
      some { Entry.newDirectory with owner := ⟨1000, 1000⟩ } := by decide +kernel
  have taken : self.ownerOf [Sample.name "instances"] = ⟨1000, 1000⟩ := by decide +kernel
  refine ⟨outside, ?_, place, taken, ?_⟩
  · intro stays
    obtain ⟨-, inside | onWay⟩ := stays.made _ _ (by decide +kernel) outside
    · exact absurd (below inside).1 (by decide +kernel)
    · -- Only the root and the base are on the way.
      have names : base.names = [Sample.name "instances"] := by decide +kernel
      rcases onWay.of_names_singleton names with root | denotes
      · cases root
      · exact absurd (place.unique denotes) (by decide +kernel)
  · intro stays
    obtain ⟨-, l, inside, here | ⟨m, mounted, -⟩⟩ := stays.owned [Sample.name "instances"] (by decide +kernel)
    · exact (below inside).2 here.symm
    · cases mounted

end Sandbox
