import Sandbox.Package.Basic
import Sandbox.Proofs.Host.Document
import Sandbox.Proofs.Json.Values

/-!
The packages of a manifest.

A manifest is read if it is an object with a list of packages, each item of which gives
two texts for its paths, and then every item gives one package, in its place
(`Package.loadManifest_eq_ok_iff`). A manifest with an item that does not is not read at
all.
-/

namespace Sandbox.Package

variable {h : Host} {p : Path} {j : Json} {l : List Json} {k k' : Package} {packages : List Package}

/-- An entry of a manifest describes a package: it gives two texts for the paths, under
their names, whatever else it holds, or as the list of the two. -/
inductive Describes : Json → Package → Prop
  | pair {j : Json} {metadata mount : String} :
    Record.Pair "pkgMetaDataPath" "pkgMountPath" (.str metadata) (.str mount) j →
      Describes j ⟨.ofString metadata, .ofString mount⟩

/-- A path leads to a manifest with a list of entries. -/
def Lists (h : Host) (p : Path) (l : List Json) : Prop :=
  ∃ ms, h.loadDocument p = .ok (.obj ms) ∧ Members.get? "packages" ms = some (.arr l)

theorem Lists.unique {l' : List Json} (lists : Lists h p l) (lists' : Lists h p l') : l = l' := by
  obtain ⟨ms, loaded, found⟩ := lists
  obtain ⟨ms', loaded', found'⟩ := lists'
  cases loaded.symm.trans loaded'
  cases found.symm.trans found'
  rfl

theorem exists_describes_of_mem (described : List.Forall₂ Describes l packages) (mem : k ∈ packages) :
    ∃ e ∈ l, Describes e k := by
  induction described with
  | nil => cases mem
  | cons first _ ih =>
      rcases List.mem_cons.mp mem with rfl | later
      · exact ⟨_, List.mem_cons_self, first⟩
      · obtain ⟨e, there, describes⟩ := ih later
        exact ⟨e, List.mem_cons_of_mem _ there, describes⟩

theorem describes_iff (sorted : j.Sorted) :
    decodeTree (entryRecord.decoder "ManifestEntry") j = .ok k ↔ Describes j k := by
  rw [entryRecord, Record.decodeTree_pair_iff (by decide) sorted]
  simp only [Decoder.decodeTree_path_iff]
  constructor
  · rintro ⟨_, _, _, _, given, ⟨metadata, rfl, rfl⟩, ⟨mount, rfl, rfl⟩, rfl⟩
    exact .pair given
  · rintro ⟨given⟩
    exact ⟨_, _, _, _, given, ⟨_, rfl, rfl⟩, ⟨_, rfl, rfl⟩, rfl⟩

theorem decodeTree_entries_iff (sorted : ∀ e ∈ l, e.Sorted) :
    decodeTree entriesDecoder (.arr l) = .ok packages ↔ List.Forall₂ Describes l packages := by
  rw [entriesDecoder, Decoder.decodeTree_list_iff]
  constructor
  · rintro ⟨_, ⟨⟩, each⟩
    exact ((List.forall₂_and_left _ _).mpr ⟨sorted, each⟩).imp fun _ _ item => (describes_iff item.1).mp item.2
  · intro each
    have items := (List.forall₂_and_left _ _).mpr ⟨sorted, each⟩
    exact ⟨l, rfl, items.imp fun _ _ item => (describes_iff item.1).mpr item.2⟩

theorem Lists.sorted (lists : Lists h p l) : ∀ e ∈ l, e.Sorted := by
  obtain ⟨ms, loaded, found⟩ := lists
  obtain ⟨-, values⟩ := Json.sorted_obj.mp (Host.loadDocument_eq_ok loaded).1
  exact Json.sorted_arr.mp (values _ (Members.mem_of_get? found))

theorem Lists.loadManifest_eq (lists : Lists h p l) :
    loadManifest h p = (decodeTree entriesDecoder (.arr l)).mapError fun e => .parse p (.content e) := by
  obtain ⟨ms, loaded, found⟩ := lists
  have member : (Json.obj ms).member? "packages" = some (.arr l) := found
  simp only [loadManifest, loaded, member]

theorem lists_of_loadManifest (ok : loadManifest h p = .ok packages) : ∃ l, Lists h p l := by
  unfold loadManifest at ok
  split at ok
  case h_1 => cases ok
  case h_2 doc loaded =>
  split at ok
  case h_2 => cases ok
  case h_1 l member =>
  cases doc with
  | obj ms => exact ⟨l, ms, loaded, member⟩
  | null | bool | num | str | arr => cases member

/-- A manifest is read if all its entries describe packages, and these are what is read. -/
theorem loadManifest_eq_ok_iff :
    loadManifest h p = .ok packages ↔ ∃ l, Lists h p l ∧ List.Forall₂ Describes l packages := by
  have read {l : List Json} (lists : Lists h p l) :
      loadManifest h p = .ok packages ↔ List.Forall₂ Describes l packages := by
    rw [lists.loadManifest_eq, mapError_eq_ok_iff, decodeTree_entries_iff lists.sorted]
  constructor
  · intro ok
    obtain ⟨l, lists⟩ := lists_of_loadManifest ok
    exact ⟨l, lists, (read lists).mp ok⟩
  · rintro ⟨l, lists, described⟩
    exact (read lists).mpr described

end Sandbox.Package
