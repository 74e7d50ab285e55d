import Sandbox.Proofs.Generate.Grant
import Sandbox.Proofs.Generate.Stages
import Sandbox.Proofs.Host.Document
import Sandbox.Proofs.Json.Values
import Sandbox.Proofs.Package.Metadata

/-!
Degraded inputs count as absent ones.

The needs of a descriptor that cannot be met, the packages that cannot be read, and the
values of a package's metadata that are of no use can all be deleted beforehand
(`Generator.Inputs.purge`), and graphics that the template has no place for can be taken
for none. The same specification comes out, or the same failure
(`Generator.degraded_counts_as_absent`).
-/

namespace Sandbox

/-! ### Descriptors -/

namespace Graphics

/-- An item that is a text is kept if it is the name of something that is there. -/
def keepsName (there : String → Bool) : Json → Bool
  | .str s => there s
  | _ => true

variable (device : Path → Bool) (group : String → Bool)

/-- The value of a field without the needs that cannot be met. -/
def purgeField : String → Json → Json
  | "devNodes" => .filterItems (keepsName fun s => device (.ofString s))
  | "groupIds" => .filterItems (keepsName group)
  | "files" => .filterItems fun entry => (mount? entry).isSome
  | _ => id

/-- A descriptor without the needs that cannot be met. -/
def purge : Json → Json :=
  .mapFields ["vendorGpuSupport"] fun
    | "vendorGpuSupport" => .mapFields ["devNodes", "groupIds", "files"] (purgeField device group)
    | _ => id

/-- The needs that can be met. -/
def met (g : Graphics) : Graphics where
  devNodes := g.devNodes.filter device
  groupIds := g.groupIds.filter group
  files := g.files.filter fun entry => (mount? entry).isSome

/-- A descriptor without needs. -/
def nothing : Json :=
  .obj [("vendorGpuSupport", .obj [])]

variable {device : Path → Bool} {group : String → Bool} {j : Json}

theorem keepsName_of_error {there : String → Bool} {expected : String} {e : DecodeError}
    (bad : Decoder.text expected .tree (.ofJson j) = .error e) : keepsName there j = true := by
  cases j with
  | str _ => cases bad
  | null | bool | num | arr | obj => rfl

theorem path_purge (sorted : j.Sorted) :
    Decoder.list Decoder.path .tree (.ofJson (j.filterItems (keepsName fun s => device (.ofString s)))) =
      (Decoder.list Decoder.path .tree (.ofJson j)).map (·.filter device) := by
  refine Decoder.list_filterItems sorted (fun k p _ ok => ?_) fun k e _ bad => ?_
  · obtain ⟨s, rfl, rfl⟩ := Decoder.decodeTree_path_iff.mp ok
    rfl
  · simp only [Decoder.path] at bad
    cases read : Decoder.text "path string" .tree (.ofJson k) with
    | error e => exact keepsName_of_error read
    | ok s => simp [read, Except.map] at bad

theorem names_purge (sorted : j.Sorted) :
    Decoder.list Decoder.string .tree (.ofJson (j.filterItems (keepsName group))) =
      (Decoder.list Decoder.string .tree (.ofJson j)).map (·.filter group) := by
  refine Decoder.list_filterItems sorted (fun k s _ ok => ?_) fun k e _ bad => keepsName_of_error bad
  rw [Decoder.text_ofJson_iff.mp ok, keepsName]

theorem files_purge (sorted : j.Sorted) :
    Decoder.list Decoder.any .tree (.ofJson (j.filterItems fun entry => (mount? entry).isSome)) =
      (Decoder.list Decoder.any .tree (.ofJson j)).map (·.filter fun entry => (mount? entry).isSome) := by
  refine Decoder.list_filterItems sorted (fun k entry ordered ok => ?_) fun k e ordered bad => ?_
  · rw [Decoder.any_ofJson ordered] at ok
    cases ok
    rfl
  · rw [Decoder.any_ofJson ordered] at bad
    cases bad

/-- Deleting the needs that cannot be met leaves those that can. -/
theorem record_changes : record.Changes (purgeField device group) (met device group) := by
  have nodes : (Record.defaulting "devNodes" (.list .path) []).Changes (purgeField device group) (·.filter device) :=
    .defaulting rfl fun j sorted => path_purge sorted
  have groups : (Record.defaulting "groupIds" (.list .string) []).Changes (purgeField device group) (·.filter group) :=
    .defaulting rfl fun j sorted => names_purge sorted
  have files : (Record.defaulting "files" (.list .any) []).Changes (purgeField device group)
      (·.filter fun entry => (mount? entry).isSome) :=
    .defaulting rfl fun j sorted => files_purge sorted
  constructor
  · intro field mem
    have each : field ∈ [Record.field "devNodes" (.list .path)] ++ [Record.field "groupIds" (.list .string)] ++
      [Record.field "files" (.list .any)] := mem
    rw [List.mem_append, List.mem_append] at each
    rcases each with (mem | mem) | mem
    · exact nodes.check field mem
    · exact groups.check field mem
    · exact files.check field mem
  · intro slots missing sorted
    simp only [record, Functor.map, Seq.seq, nodes.build slots missing sorted, groups.build slots missing sorted,
      files.build slots missing sorted]
    generalize (Record.defaulting "devNodes" (.list .path) []).build _ _ _ = found
    generalize (Record.defaulting "groupIds" (.list .string) []).build _ _ _ = known
    generalize (Record.defaulting "files" (.list .any) []).build _ _ _ = entries
    rcases found with _ | _
    · rfl
    · rcases known with _ | _
      · rfl
      · rcases entries with _ | _ <;> rfl

/-- A descriptor without the needs that cannot be met stands for those that can, and it
is refused for the reason that it is refused for with them. -/
theorem decodeTree_purge (sorted : j.Sorted) :
    decodeTree decoder (purge device group j) = (decodeTree decoder j).map (met device group) := by
  have changes : descriptorRecord.Changes
      (fun
        | "vendorGpuSupport" => .mapFields ["devNodes", "groupIds", "files"] (purgeField device group)
        | _ => id) (met device group) :=
    .required fun j sorted => record_changes.decoder "GraphicsDescriptor" sorted
  exact changes.decoder "DescriptorFile" sorted

/-! ### Grants -/

theorem filterMap_filter_isSome {α β : Type} (f : α → Option β) (l : List α) :
    (l.filter fun a => (f a).isSome).filterMap f = l.filterMap f := by
  rw [List.filterMap_filter]
  refine List.filterMap_congr fun a _ => ?_
  cases f a <;> rfl

/-- Only needs that can be met are granted. -/
theorem grant_met (g : Graphics) (h : Host) (accounts : Accounts) :
    (g.met (fun p => (h.device p).toOption.isSome) fun name => (accounts.group name).toOption.isSome).grant h
      accounts = g.grant h accounts := by
  simp only [grant, met, filterMap_filter_isSome]

end Graphics

namespace Generator

variable {g : Generator} {h h' : Host} {a : Application} {packages packages' : List Package} {base : Path}

/-- What building reads: documents, as far as they can be read, and device nodes. -/
structure Inputs where
  template : Except Error Json
  descriptor : Except Error Json
  /-- The documents with the metadata of the packages. -/
  metadata : List (Option Json)
  device : Path → Option Device

/-- What building reads on a host. -/
def inputs (g : Generator) (h : Host) (packages : List Package) : Inputs where
  template := h.loadDocument g.config.baseTemplate
  descriptor := h.loadDocument g.config.graphicsDescriptor
  metadata := packages.map fun p => (h.loadDocument p.metadataPath).toOption
  device p := (h.device p).toOption

/-- The inputs without needs that cannot be met, packages that cannot be read, and values
of metadata that are of no use. -/
def Inputs.purge (x : Inputs) (accounts : Accounts) : Inputs where
  template := x.template
  descriptor := x.descriptor.map
    (Graphics.purge (fun p => (x.device p).isSome) fun name => (accounts.group name).toOption.isSome)
  metadata := (x.metadata.filterMap (·.bind Package.Metadata.purge?)).map some
  device := x.device

theorem load_eq (g : Generator) (h : Host) :
    Graphics.load h g.config.graphicsDescriptor = (h.loadDocument g.config.graphicsDescriptor >>= fun j =>
      (decodeTree Graphics.decoder j).mapError fun e => .parse g.config.graphicsDescriptor (.content e)) := by
  rw [Graphics.load, Host.loadDecoded]
  cases h.loadDocument g.config.graphicsDescriptor <;> rfl

theorem load_purge
    (descriptor : h'.loadDocument g.config.graphicsDescriptor = ((g.inputs h packages).purge g.accounts).descriptor) :
    Graphics.load h' g.config.graphicsDescriptor = (Graphics.load h g.config.graphicsDescriptor).map
      (Graphics.met (fun p => (h.device p).toOption.isSome) fun name => (g.accounts.group name).toOption.isSome) := by
  rw [load_eq, load_eq, descriptor]
  simp only [Inputs.purge, inputs]
  cases loaded : h.loadDocument g.config.graphicsDescriptor with
  | error e => rfl
  | ok j =>
      change Except.mapError _ (decodeTree _ (Graphics.purge _ _ j)) = Except.map _ (Except.mapError _ _)
      rw [Graphics.decodeTree_purge (Host.loadDocument_eq_ok loaded).1]
      cases decodeTree Graphics.decoder j <;> rfl

/-- The same generator with its template at another path. -/
def withTemplate (g : Generator) (base : Path) : Generator :=
  { g with config := { g.config with baseTemplate := base } }

/-- Assembling depends on the template with the graphics and on what packages contribute. -/
theorem assemble_congr {t : Spec} {grant' grant : Graphics.Grant} {ms' ms : List Package.Metadata}
    (granted : (grant'.apply t).2 = (grant.apply t).2)
    (contributed : ms'.map Package.Metadata.gist = ms.map Package.Metadata.gist) :
    (g.withTemplate base).assemble a t grant' ms' = g.assemble a t grant ms := by
  unfold assemble
  rw [Package.contributionSteps_congr contributed]
  revert granted
  generalize grant'.apply t = applied'
  generalize grant.apply t = applied
  intro granted
  obtain ⟨_, s'⟩ := applied'
  obtain ⟨_, s⟩ := applied
  cases granted
  rfl

theorem build_congr_of {change : Graphics → Graphics}
    (template : h'.loadDocument base = h.loadDocument g.config.baseTemplate)
    (graphics : Graphics.load h' g.config.graphicsDescriptor =
      (Graphics.load h g.config.graphicsDescriptor).map change)
    (granted : ∀ t needs, g.template h = .ok t → Graphics.load h g.config.graphicsDescriptor = .ok needs →
      (((change needs).grant h' g.accounts).apply t).2 = ((needs.grant h g.accounts).apply t).2)
    (contributed : (Package.readable h' packages').map Package.Metadata.gist =
      (Package.readable h packages).map Package.Metadata.gist) :
    (g.withTemplate base).build h' a packages' = g.build h a packages := by
  have based : (g.withTemplate base).template h' = g.template h := by
    rw [Generator.template, Generator.template, ← template]
    rfl
  unfold build
  rw [based]
  change (_ >>= fun t => Stage.graphicsDescriptor.guard (Graphics.load h' g.config.graphicsDescriptor) >>= _) = _
  rw [graphics]
  cases loaded : g.template h with
  | error e => rfl
  | ok t =>
      cases needed : Graphics.load h g.config.graphicsDescriptor with
      | error e => rfl
      | ok needs => exact assemble_congr (granted t needs loaded needed) contributed

theorem sorted_of_mem_metadata {j : Json} (mem : some j ∈ (g.inputs h packages).metadata) : j.Sorted := by
  obtain ⟨p, -, loaded⟩ := List.mem_map.mp mem
  cases read : h.loadDocument p.metadataPath with
  | error e =>
      rw [read] at loaded
      cases loaded
  | ok k =>
      rw [read] at loaded
      cases loaded
      exact (Host.loadDocument_eq_ok read).1

theorem build_purge (purged : (g.withTemplate base).inputs h' packages' = (g.inputs h packages).purge g.accounts) :
    (g.withTemplate base).build h' a packages' = g.build h a packages := by
  have device (p : Path) : (h'.device p).toOption = (h.device p).toOption :=
    congrFun (congrArg Inputs.device purged) p
  have granted (needs : Graphics) : needs.grant h' g.accounts = needs.grant h g.accounts := by
    simp only [Graphics.grant, device]
  refine build_congr_of (congrArg Inputs.template purged) (load_purge (congrArg Inputs.descriptor purged)) ?_ ?_
  · intro t needs _ _
    rw [granted, Graphics.grant_met]
  · have docs : (packages'.map fun p => (h'.loadDocument p.metadataPath).toOption) =
        ((g.inputs h packages).metadata.filterMap (·.bind Package.Metadata.purge?)).map some :=
      congrArg Inputs.metadata purged
    rw [Package.readable_eq, docs, Package.readable_eq]
    exact Package.gists_purge fun j mem => sorted_of_mem_metadata mem

theorem build_without_graphics {t : Spec} {needs : Graphics} (loaded : g.template h = .ok t)
    (needed : Graphics.load h g.config.graphicsDescriptor = .ok needs)
    (bad : ¬ (needs.grant h g.accounts).Fits t)
    (same : (g.withTemplate base).inputs h' packages' =
      { g.inputs h packages with descriptor := .ok Graphics.nothing }) :
    (g.withTemplate base).build h' a packages' = g.build h a packages := by
  have descriptor : h'.loadDocument g.config.graphicsDescriptor = .ok Graphics.nothing :=
    congrArg Inputs.descriptor same
  have nothing : decodeTree Graphics.decoder Graphics.nothing = .ok ⟨[], [], []⟩ := by decide +kernel
  have graphics : Graphics.load h' g.config.graphicsDescriptor =
      (Graphics.load h g.config.graphicsDescriptor).map fun _ => ⟨[], [], []⟩ := by
    rw [load_eq, descriptor, needed]
    exact congrArg (Except.mapError fun e => Error.parse g.config.graphicsDescriptor (.content e)) nothing
  refine build_congr_of (congrArg Inputs.template same) graphics ?_ ?_
  · intro t' needs' loaded' needed'
    cases loaded.symm.trans loaded'
    cases needed.symm.trans needed'
    obtain ⟨e, -, refused⟩ := Graphics.Grant.apply_of_not_fits bad
    rw [refused]
    rfl
  · have docs : (packages'.map fun p => (h'.loadDocument p.metadataPath).toOption) =
        (g.inputs h packages).metadata := congrArg Inputs.metadata same
    rw [Package.readable_eq, docs, Package.readable_eq]
    rfl

/-- Degraded inputs count as absent ones, and graphics that the template has no place for
count as none. The template may stand at another path when they are taken away, so that
it can be kept where it shares a file with what is taken from. -/
theorem degraded_counts_as_absent (g : Generator) (h h' : Host) (a : Application)
    (packages packages' : List Package) (base : Path) :
    ((g.withTemplate base).inputs h' packages' = (g.inputs h packages).purge g.accounts →
      (g.withTemplate base).build h' a packages' = g.build h a packages) ∧
    ∀ t needs, g.template h = .ok t → Graphics.load h g.config.graphicsDescriptor = .ok needs →
      ¬ (needs.grant h g.accounts).Fits t →
      (g.withTemplate base).inputs h' packages' =
        { g.inputs h packages with descriptor := .ok Graphics.nothing } →
      (g.withTemplate base).build h' a packages' = g.build h a packages :=
  ⟨build_purge, fun _ _ => build_without_graphics⟩

end Generator

/-! ### A device with degraded inputs -/

namespace Sample

/-- A file with a document. -/
def document (j : Json) : Entry :=
  file j.compact

/-- A descriptor with one need that can be met and one of each kind that cannot. -/
def needs : Json :=
  .obj [("vendorGpuSupport", .obj [("devNodes", .strings ["/card", "/none"]), ("files", .arr [.null]),
    ("groupIds", .strings ["nobody"])])]

/-- Metadata of which one value is of use. -/
def metadata : Json :=
  .obj [("entryPoint", .str ""), ("envVariables", .strings ["A=1"]), ("memoryLimit", .str "much"),
    ("permissions", .nat 5)]

/-- A host with these inputs and a template that has no place for device nodes. -/
def degraded : Host :=
  host [
    ([name "shaped.json"], document (.obj [("linux", .obj [("devices", .nat 1)])])),
    ([name "needs.json"], document needs),
    ([name "metadata.json"], document metadata),
    ([name "card"], ⟨.device .character 226 0, .root, 0o600⟩)]

/-- The generator that reads them. -/
def needy : Generator :=
  { generator with
    config := { config with
      baseTemplate := .ofString "/shaped.json"
      graphicsDescriptor := .ofString "/needs.json" } }

/-- Packages of which the first has metadata. -/
def packages : List Package :=
  [⟨.ofString "/metadata.json", .ofString "/layer"⟩, ⟨.ofString "/none", .ofString "/layer"⟩]

/-- The host with another descriptor. -/
def describing (j : Json) : Host :=
  { degraded with tree := degraded.tree.insert [name "needs.json"] (document j) }

/-- The descriptor that is left when the needs that cannot be met are deleted. -/
def left : Json :=
  .obj [("vendorGpuSupport",
    .obj [("devNodes", .strings ["/card"]), ("files", .arr []), ("groupIds", .arr [])])]

/-- The host with all that is degraded deleted. -/
def purged : Host :=
  { describing left with
    tree := (describing left).tree.insert [name "metadata.json"]
      (document (.obj [("envVariables", .strings ["A=1"])])) }

end Sample

namespace Generator

open Sample in
theorem degraded_counts_as_absent_sample :
    (needy.inputs purged (packages.take 1) = (needy.inputs degraded packages).purge needy.accounts ∧
      needy.build purged (application first) (packages.take 1) =
        needy.build degraded (application first) packages) ∧
    ∃ t needs, needy.template degraded = .ok t ∧
      Graphics.load degraded needy.config.graphicsDescriptor = .ok needs ∧
      ¬ (needs.grant degraded needy.accounts).Fits t ∧
      needy.inputs (describing Graphics.nothing) packages =
        { needy.inputs degraded packages with descriptor := .ok Graphics.nothing } ∧
      needy.build (describing Graphics.nothing) (application first) packages =
        needy.build degraded (application first) packages := by
  have described (j : Json) (p : Path) :
      ((describing j).device p).toOption = (degraded.device p).toOption := by
    have found : degraded.tree.get? [name "needs.json"] = some (document needs) := by decide +kernel
    exact Host.toOption_device_rewrite found rfl rfl
  have rewritten (p : Path) : (purged.device p).toOption = (degraded.device p).toOption := by
    have found : (describing left).tree.get? [name "metadata.json"] = some (document metadata) := by decide +kernel
    rw [← described left p]
    exact Host.toOption_device_rewrite found rfl rfl
  have deleted : needy.inputs purged (packages.take 1) = (needy.inputs degraded packages).purge needy.accounts := by
    rw [inputs, Inputs.purge, Inputs.mk.injEq]
    exact ⟨by decide +kernel, by decide +kernel, by decide +kernel, funext rewritten⟩
  have blank : needy.inputs (describing Graphics.nothing) packages =
      { needy.inputs degraded packages with descriptor := .ok Graphics.nothing } := by
    rw [inputs, Inputs.mk.injEq]
    exact ⟨by decide +kernel, by decide +kernel, by decide +kernel, funext (described _)⟩
  have loaded : needy.template degraded = .ok ⟨[("linux", .obj [("devices", .nat 1)])]⟩ := by decide +kernel
  have needed : Graphics.load degraded needy.config.graphicsDescriptor =
      .ok ⟨[.ofString "/card", .ofString "/none"], ["nobody"], [.null]⟩ := by decide +kernel
  have unfit : ¬ (Graphics.grant ⟨[.ofString "/card", .ofString "/none"], ["nobody"], [.null]⟩ degraded
      needy.accounts).Fits ⟨[("linux", .obj [("devices", .nat 1)])]⟩ := by decide +kernel
  obtain ⟨purge, -⟩ := degraded_counts_as_absent needy degraded purged (application first) packages
    (packages.take 1) needy.config.baseTemplate
  obtain ⟨-, blind⟩ := degraded_counts_as_absent needy degraded (describing Graphics.nothing) (application first)
    packages packages needy.config.baseTemplate
  exact ⟨⟨deleted, purge deleted⟩, _, _, loaded, needed, unfit, blank, blind _ _ loaded needed unfit blank⟩

end Generator

end Sandbox
