import Mathlib.Data.List.Nodup
import Sandbox.Proofs.Generate.Contents

/-!
The groups that an instance maps.

The groups of the graphics are mapped to themselves, in the order in which they are named,
and behind them the root of the instance is mapped to the group of the application. Neither
looks at the other. So a user namespace can take the mappings exactly if the groups of the
graphics are different from each other and from the root
(`Generator.group_mappings_usable_iff`).
-/

namespace Sandbox

namespace IdMapping

variable {gids : List UInt32} {own : UInt32}

/-- A user namespace can take the mappings: no two of them have the same number within the
instance. -/
def Usable (ms : List IdMapping) : Prop :=
  ms.Pairwise fun m n => m.containerId ≠ n.containerId

instance (ms : List IdMapping) : Decidable (Usable ms) :=
  inferInstanceAs (Decidable (List.Pairwise _ _))

/-- Groups that are mapped to themselves, and the root that is mapped to a group. -/
def ofGroups (gids : List UInt32) (own : UInt32) : List IdMapping :=
  gids.map (fun gid => .single gid gid) ++ [.single 0 own]

theorem containerIds_ofGroups (gids : List UInt32) (own : UInt32) :
    (ofGroups gids own).map (·.containerId) = gids ++ [0] := by
  simp [ofGroups, single, Function.comp_def]

theorem usable_ofGroups_iff : Usable (ofGroups gids own) ↔ gids.Nodup ∧ 0 ∉ gids := by
  have byNumber : Usable (ofGroups gids own) ↔ (gids ++ [0]).Nodup := by
    rw [← containerIds_ofGroups gids own]
    exact List.pairwise_map.symm
  rw [byNumber, List.nodup_append]
  constructor
  · rintro ⟨different, -, apart⟩
    exact ⟨different, fun mem => apart 0 mem 0 (List.mem_singleton_self 0) rfl⟩
  · rintro ⟨different, root⟩
    refine ⟨different, List.nodup_singleton 0, fun gid mem other last same => root ?_⟩
    rw [List.mem_singleton] at last
    rwa [← last, ← same]

/-- The root is mapped once for each time that it is among the groups, and once more to the
group that is meant for it. -/
theorem filter_ofGroups (gids : List UInt32) (own : UInt32) :
    (ofGroups gids own).filter (·.containerId = 0) = List.replicate (gids.count 0) (single 0 0) ++ [single 0 own] := by
  have groups : (gids.map fun gid => single gid gid).filter (·.containerId = 0) =
      List.replicate (gids.count 0) (single 0 0) := by
    rw [List.filter_map]
    have roots : gids.filter ((fun m : IdMapping => decide (m.containerId = 0)) ∘ fun gid => single gid gid) =
        List.replicate (gids.count 0) 0 := List.filter_eq 0
    rw [roots, List.map_replicate]
  rw [ofGroups, List.filter_append, groups]
  rfl

theorem filter_ofGroups_iff : (ofGroups gids own).filter (·.containerId = 0) = [single 0 own] ↔ 0 ∉ gids := by
  rw [filter_ofGroups, ← List.count_eq_zero]
  constructor
  · intro once
    simpa using congrArg List.length once
  · intro none
    rw [none]
    rfl

end IdMapping

namespace Generator

open Section

variable {g : Generator} {h : Host} {a : Application} {packages : List Package} {s t : Spec} {graphics : Graphics}

/-- The numbers of the groups that the graphics add to a template: of all groups that are
known, or of none where the graphics are left out. -/
def addedGroups (g : Generator) (h : Host) (graphics : Graphics) (t : Spec) : List UInt32 :=
  (graphics.added h g.accounts t).groupIds.filterMap fun name => (g.accounts.group name).toOption

/-- On a template without mappings of groups the groups of the graphics are mapped to
themselves and the root to the group of the application, and nothing else is mapped. A user
namespace can take the mappings exactly if the groups of the graphics are different from
each other and none of them is that of the root, and the root is mapped to the group of the
application alone exactly if none of them is. -/
theorem group_mappings_usable_iff (ok : g.build h a packages = .ok s) (template : g.template h = .ok t)
    (descriptor : Graphics.load h g.config.graphicsDescriptor = .ok graphics)
    (unmapped : items? (t.value? ["linux", "gidMappings"]) = some []) :
    let gids := g.addedGroups h graphics t
    let mappings := IdMapping.ofGroups gids a.gid
    s.value? ["linux", "gidMappings"] = some (.arr (mappings.map IdMapping.toJson)) ∧
      (IdMapping.Usable mappings ↔ gids.Nodup ∧ 0 ∉ gids) ∧
      (mappings.filter (·.containerId = 0) = [.single 0 a.gid] ↔ 0 ∉ gids) := by
  intro gids mappings
  obtain ⟨t', graphics', name, dir, template', descriptor', -, run⟩ := run_of_build ok
  cases template.symm.trans template'
  cases descriptor.symm.trans descriptor'
  obtain ⟨l, before, after⟩ := (lists_of_run run).gidMappings
  cases unmapped.symm.trans before
  refine ⟨?_, IdMapping.usable_ofGroups_iff, IdMapping.filter_ofGroups_iff⟩
  rw [after, List.nil_append]
  simp only [mappings, gids, IdMapping.ofGroups, addedGroups, List.map_append, List.map_map]
  rfl

theorem group_mappings_usable_iff_sample :
    let t : Spec := ⟨[("mounts", .arr [.str "proc"])]⟩
    let graphics : Graphics := ⟨[], ["nobody", "video"], [Sample.library, .null]⟩
    Sample.stocking.template Sample.stocked = .ok t ∧
      Graphics.load Sample.stocked Sample.stocking.config.graphicsDescriptor = .ok graphics ∧
      items? (t.value? ["linux", "gidMappings"]) = some [] ∧
      ∃ s, Sample.stocking.build Sample.stocked (Sample.application Sample.first) Sample.contributing = .ok s ∧
        s.value? ["linux", "gidMappings"] =
          some (.arr ([IdMapping.single 44 44, .single 0 1000].map IdMapping.toJson)) ∧
        IdMapping.Usable [.single 44 44, .single 0 1000] := by
  intro t graphics
  have descriptor : Graphics.load Sample.stocked Sample.stocking.config.graphicsDescriptor = .ok graphics := by
    decide +kernel
  obtain ⟨s, ok⟩ := Sample.stocking_builds
  have gids : Sample.stocking.addedGroups Sample.stocked graphics t = [44] := by decide +kernel
  have settled := group_mappings_usable_iff ok Sample.stocking_template descriptor rfl
  rw [gids] at settled
  obtain ⟨mapped, usable, -⟩ := settled
  exact ⟨Sample.stocking_template, descriptor, rfl, s, ok, mapped, usable.mpr (by decide)⟩

/-- A group that is named twice is mapped twice. One with the number of the root is mapped
beside the root's own mapping, and to the root outside. -/
theorem group_mappings_clash :
    let g : Generator := ⟨{ Sample.config with graphicsDescriptor := .ofString "/needs.json" },
      ⟨[("root", 0), ("video", 44)], []⟩⟩
    let h (groups : List String) := Sample.host [([Sample.name "needs.json"], Sample.document (.obj
      [("vendorGpuSupport", .obj [("groupIds", .strings groups)])]))]
    let a := Sample.application Sample.first
    (g.template (h ["video", "video"]) = .ok ⟨[]⟩ ∧
      (∃ s, g.build (h ["video", "video"]) a [] = .ok s ∧ s.value? ["linux", "gidMappings"] =
        some (.arr ([IdMapping.single 44 44, .single 44 44, .single 0 1000].map IdMapping.toJson))) ∧
      ¬ IdMapping.Usable [.single 44 44, .single 44 44, .single 0 1000]) ∧
    g.template (h ["root"]) = .ok ⟨[]⟩ ∧
      (∃ s, g.build (h ["root"]) a [] = .ok s ∧ s.value? ["linux", "gidMappings"] =
        some (.arr ([IdMapping.single 0 0, .single 0 1000].map IdMapping.toJson))) ∧
      ¬ IdMapping.Usable [.single 0 0, .single 0 1000] := by
  intro g h a
  have built (groups : List String) (ms : List IdMapping)
      (made : (g.build (h groups) a []).toOption.bind (·.value? ["linux", "gidMappings"]) =
        some (.arr (ms.map IdMapping.toJson))) :
      ∃ s, g.build (h groups) a [] = .ok s ∧ s.value? ["linux", "gidMappings"] =
        some (.arr (ms.map IdMapping.toJson)) := by
    obtain ⟨s, some, there⟩ := Option.bind_eq_some_iff.mp made
    obtain ⟨_, ok⟩ := Sample.exists_ok (Option.isSome_of_eq_some some)
    rw [ok] at some
    cases some
    exact ⟨s, ok, there⟩
  refine ⟨⟨?_, built _ _ ?_, ?_⟩, ?_, built _ _ ?_, ?_⟩
  all_goals decide +kernel

end Generator

end Sandbox
