import Sandbox.Proofs.Generate.Footprint
import Sandbox.Proofs.Generate.Sample

/-!
Different instances do not interfere.

Generating for two instances one after the other gives each the result that it has
alone, and leaves the same files in either order (`instances_independent`). For that,
the way to the overlay root must not lead by way of what generating replaces, and an
overlay on the directory of an instance must not be written elsewhere
(`Host.SelfContained`). Neither can be left out (`instances_dependent`): a
specification takes the place of a link, and a directory that an overlay is mounted
on keeps its owner on the writable layer.
-/

namespace Sandbox

open Sandbox.Path

namespace Host

variable {h : Host} {root : Path} {r : Location} {id : InstanceId}

/-- Nothing in the directory of an instance leads elsewhere: a link in the place of the
specification is not on the way to the overlay root, and an overlay on the directory is
written inside it. -/
structure SelfContained (h : Host) (root : Path) (r : Location) (id : InstanceId) : Prop where
  apart : ∀ target, h.tree.shapeAt (id.spec r) = some (.link target) → id.spec r ∉ h.looks root
  layers : h.LayersWithin (id.dir r)

theorem SelfContained.place (contained : h.SelfContained root r id) (resolved : h.resolve root = .ok r)
    (directory : h.tree.isDirectory r = true)
    (noLink : ∀ target, h.tree.shapeAt (id.dir r) ≠ some (.link target)) : h.Place root r id := by
  refine ⟨⟨resolved, directory, ?_⟩, noLink, contained.layers⟩
  rintro k mem rfl
  have walked := (resolve_eq_ok_iff.mp resolved).2
  obtain ⟨c, found⟩ := Option.isSome_iff_exists.mp (FileTree.shapeAt_of_walk walked _ mem)
  -- What is on the way to a directory is a directory or a link.
  cases c with
  | directory => exact FileTree.isDirectory_iff.mpr found
  | link target => exact absurd (List.mem_cons_of_mem _ mem) (contained.apart target found)
  | other => exact absurd found (FileTree.shape_of_walk directory walked _ mem)

end Host

namespace Generator

open Host

variable {g : Generator} {h : Host} {r : Location} {a b : Application} {packages others : List Package}

/-- Two instances below an overlay root that is a directory at `r`. Their directories
are no links, and nothing is read by way of the root. -/
structure Neighbours (g : Generator) (h : Host) (r : Location) (a b : Application)
    (packages others : List Package) : Prop where
  differ : a.instanceId ≠ b.instanceId
  root : h.resolve g.config.overlayRoot = .ok r
  directory : h.tree.isDirectory r = true
  noLink : ∀ id ∈ [a.instanceId, b.instanceId], ∀ target,
    h.tree.shapeAt (id.dir r) ≠ some (.link target)
  inputs : ∀ p, g.Reads h packages p ∨ g.Reads h others p → h.Avoids p r

/-- Without device nodes in the descriptor, few inputs have to be looked at. -/
theorem Neighbours.of_no_node (differ : a.instanceId ≠ b.instanceId)
    (root : h.resolve g.config.overlayRoot = .ok r) (directory : h.tree.isDirectory r = true)
    (plain : ∀ id ∈ [a.instanceId, b.instanceId],
      h.tree.shapeAt (id.dir r) = some .directory ∨ h.tree.shapeAt (id.dir r) = none)
    (none : (Graphics.load h g.config.graphicsDescriptor).toOption.all (·.devNodes.isEmpty) = true)
    (avoided : ∀ p ∈ g.config.baseTemplate :: g.config.graphicsDescriptor ::
      (packages ++ others).map (·.metadataPath), h.Avoids p r) :
    g.Neighbours h r a b packages others := by
  refine ⟨differ, root, directory, ?_, ?_⟩
  · intro id mem target
    rcases plain id mem with made | absent
    · rw [made]; simp
    · rw [absent]; simp
  · intro p reads
    apply avoided
    simp only [List.mem_cons, List.map_append, List.mem_append]
    rcases reads with reads | reads
    · have := reads.mem_of_no_node none
      simp only [List.mem_cons] at this
      exact this.imp_right (Or.imp_right .inl)
    · have := reads.mem_of_no_node none
      simp only [List.mem_cons] at this
      exact this.imp_right (Or.imp_right .inr)

/-- An instance that comes second finds what it would find alone. -/
theorem generate_second (differ : a.instanceId ≠ b.instanceId)
    (place : h.Place g.config.overlayRoot r a.instanceId)
    (place' : h.Place g.config.overlayRoot r b.instanceId)
    (packages : List Package) (inputs : ∀ p, g.Reads h others p → h.Avoids p r) :
    let before := (g.generate h a packages).2
    (g.generate before b others).1 = (g.generate h b others).1 ∧
      AgreeOn (b.instanceId.dir r <+: ·) (g.generate h b others).2 (g.generate before b others).2 ∧
      AgreeOn (¬ b.instanceId.dir r <+: ·) before (g.generate before b others).2 := by
  intro before
  have within : Within h before r a.instanceId := generate_within place packages
  have later := place'.of_within place differ.symm within
  have same : g.build before b others = g.build h b others := by
    refine build_of_agreeOn (l := r) (within.agree.mono fun k outside below => outside ?_) inputs
    exact (List.prefix_append r [a.instanceId.name]).trans below
  have alike := within.agree.mono fun k below => InstanceId.not_prefix_of_ne differ.symm below
  obtain ⟨result, after⟩ := generate_congr place' later alike same
  exact ⟨result, after, (generate_within later others).agree⟩

/-- Generating for two instances commutes: each has the result that it has alone, the
same files are left in either order, and neither run changes anything outside the
directory of its instance. What is written below a mount point is taken to be kept where
it is seen, as everywhere: that an overlay with the overlay root below it shows the same
files on its writable layer is not followed. -/
theorem instances_independent (near : g.Neighbours h r a b packages others)
    (contained : ∀ id ∈ [a.instanceId, b.instanceId], h.SelfContained g.config.overlayRoot r id) :
    let first := g.generate h a packages
    let second := g.generate h b others
    let thenSecond := g.generate first.2 b others
    let thenFirst := g.generate second.2 a packages
    thenFirst.1 = first.1 ∧ thenSecond.1 = second.1 ∧
      AgreeOn (fun _ => True) thenSecond.2 thenFirst.2 ∧
      (AgreeOn (¬ a.instanceId.dir r <+: ·) h first.2 ∧
        AgreeOn (¬ a.instanceId.dir r <+: ·) second.2 thenFirst.2) ∧
      AgreeOn (¬ b.instanceId.dir r <+: ·) h second.2 ∧
        AgreeOn (¬ b.instanceId.dir r <+: ·) first.2 thenSecond.2 := by
  intro first second thenSecond thenFirst
  obtain ⟨differ, root, directory, noLink, inputs⟩ := near
  have place (id : InstanceId) (mem : id ∈ [a.instanceId, b.instanceId]) :=
    (contained id mem).place root directory (noLink id mem)
  have placeA := place a.instanceId (by simp)
  have placeB := place b.instanceId (by simp)
  have outsideA : AgreeOn _ h first.2 := (generate_within placeA packages).agree
  have outsideB : AgreeOn _ h second.2 := (generate_within placeB others).agree
  obtain ⟨resultB, insideB, outsideB'⟩ :=
    generate_second differ placeA placeB packages fun p reads => inputs p (.inr reads)
  obtain ⟨resultA, insideA, outsideA'⟩ :=
    generate_second differ.symm placeB placeA others fun p reads => inputs p (.inl reads)
  refine ⟨resultA, resultB, ⟨?_, ?_⟩, ⟨outsideA, outsideA'⟩, outsideB, outsideB'⟩
  · intro k _
    -- A place belongs to the first instance, to the second, or to neither.
    by_cases inA : a.instanceId.dir r <+: k
    · have outB := InstanceId.not_prefix_of_ne differ inA
      rw [insideA.get? k inA, outsideB'.get? k outB]
    · by_cases inB : b.instanceId.dir r <+: k
      · rw [outsideA'.get? k inA, insideB.get? k inB]
      · rw [outsideA'.get? k inA, outsideB.get? k inB, outsideB'.get? k inB, outsideA.get? k inA]
  · have before := outsideA.setting.trans outsideB'.setting
    exact before.symm.trans (outsideB.setting.trans outsideA'.setting)

/-- Two instances on the sample device, one of them with a package. -/
theorem instances_independent_sample :
    let h := Sample.host []
    let r := [Sample.name "instances"]
    let a := Sample.application Sample.first
    let b := Sample.application Sample.second
    Sample.generator.Neighbours h r a b [Sample.package] [] ∧
      (∀ id ∈ [a.instanceId, b.instanceId], h.SelfContained Sample.config.overlayRoot r id) ∧
      (Sample.generator.generate (Sample.generator.generate h a [Sample.package]).2 b []).1 =
        (Sample.generator.generate h b []).1 ∧
      (Sample.generator.generate h b []).1.toOption.isSome := by
  intro h r a b
  have near : Sample.generator.Neighbours h r a b [Sample.package] [] :=
    .of_no_node (by decide) (by decide +kernel) (by decide +kernel) (by decide +kernel) (by decide +kernel)
      (by unfold Avoids; decide +kernel)
  have contained (id : InstanceId) (_ : id ∈ [a.instanceId, b.instanceId]) :
      h.SelfContained Sample.config.overlayRoot r id :=
    ⟨fun target found => absurd found (FileTree.shapeAt_ne_link (by decide +kernel) _ target),
      fun m mem => nomatch mem⟩
  exact ⟨near, contained, (instances_independent near contained).2.1, by decide +kernel⟩

/-- The conditions on the directories of the instances are needed. On the way to the
overlay root, a specification replaces a link, and the second instance fails where alone
it does not. With an overlay on its directory that is written elsewhere, an instance
changes an owner there. -/
theorem instances_dependent :
    let a := Sample.application Sample.first
    let b := Sample.application Sample.second
    let r := [Sample.name "instances"]
    let g : Generator :=
      { Sample.generator with
        config := { Sample.config with overlayRoot := .ofString "/instances/first/config.json/.." } }
    let linked := Sample.host [(a.instanceId.dir r, .newDirectory),
      (a.instanceId.spec r, ⟨.link (.ofString "."), .root, 0o777⟩)]
    let mounted :=
      { Sample.host [(a.instanceId.dir r, .newDirectory)] with
        mounts := [{ point := a.instanceId.dir r, upper := [Sample.name "layer"] }] }
    (g.Neighbours linked r a b [] [] ∧
      (∀ id ∈ [a.instanceId, b.instanceId], linked.LayersWithin (id.dir r)) ∧
      (g.generate (g.generate linked a []).2 b []).1 ≠ (g.generate linked b []).1) ∧
    Sample.generator.Neighbours mounted r a b [] [] ∧
      (∀ id ∈ [a.instanceId, b.instanceId], ∀ target,
        mounted.tree.shapeAt (id.spec r) = some (.link target) →
          id.spec r ∉ mounted.looks Sample.config.overlayRoot) ∧
      ¬ AgreeOn (¬ a.instanceId.dir r <+: ·) mounted (Sample.generator.generate mounted a []).2 := by
  intro a b r g linked mounted
  have near : g.Neighbours linked r a b [] [] :=
    .of_no_node (by decide) (by decide +kernel) (by decide +kernel) (by decide +kernel) (by decide +kernel)
      (by unfold Avoids; decide +kernel)
  have near' : Sample.generator.Neighbours mounted r a b [] [] :=
    .of_no_node (by decide) (by decide +kernel) (by decide +kernel) (by decide +kernel) (by decide +kernel)
      (by unfold Avoids; decide +kernel)
  refine ⟨⟨near, ?_, ?_⟩, near', ?_, ?_⟩
  · intro id _ m mem
    cases mem
  · intro same
    have fails : (g.generate (g.generate linked a []).2 b []).1.toOption.isSome = false := by decide +kernel
    have alone : (g.generate linked b []).1.toOption.isSome = true := by decide +kernel
    rw [same, alone] at fails
    cases fails
  · intro id _ target found
    exact absurd found (FileTree.shapeAt_ne_link (by decide +kernel) _ target)
  · intro agree
    let after := (Sample.generator.generate mounted a []).2
    have owner : (after.tree.get? [Sample.name "layer"]).map (·.owner) = some ⟨1000, 1000⟩ := by
      decide +kernel
    rw [agree.get? _ (by decide +kernel)] at owner
    exact absurd owner (by decide +kernel)

end Generator

end Sandbox
