import Sandbox.Generate.Contribution
import Sandbox.Proofs.Json.Fields

/-!
What counts of a package's metadata.

An object is always metadata, and each field is read from the value under its own name
alone (`Package.Metadata.decodeTree_obj`). So a value that is of no use can as well be
missing: one that does not fit its field, an empty entry point, and a memory limit that
is none (`Package.Metadata.IsVoid`). Without such values the metadata contributes the same
(`Package.Metadata.gist_of_purge`).
-/

namespace Sandbox.Package

namespace Metadata

variable {α : Type} {ms : List (String × Json)} {j : Json} {m : Metadata}

/-- The value of a field of an object, or `a` if it is missing or does not fit. -/
def read (ms : List (String × Json)) (name : String) (d : Decoder α) (a : α) : α :=
  ((Members.get? name ms).bind fun j => (decodeTree d j).toOption).getD a

theorem build_field (ms : List (String × Json)) (name : String) (d : Decoder α) (a : α)
    (missing : String → DecodeError) :
    (field name d a).build .tree (fun name => (Members.get? name ms).map .ofJson) missing =
      .ok (read ms name d a) := by
  unfold read
  cases found : Members.get? name ms with
  | none => simp [field, Record.defaulting, found]
  | some j =>
      simp only [field, Record.defaulting, found, Option.map_some, Decoder.lenient, decodeTree, Option.bind_some]
      cases d .tree (.ofJson j) <;> rfl

/-- Whatever stands in a field is accepted. -/
theorem check_eq_ok {f : Field} (mem : f ∈ record.fields) (src : Source) (r : Raw) : f.check src r = .ok () := by
  have lenient {β : Type} (d : Decoder β) (b : β) (name : String) :
      (Record.field name (d.lenient b)).check src r = .ok () := by
    simp only [Record.field, Decoder.lenient]
    cases d src r <;> rfl
  have named : ∃ (β : Type) (d : Decoder β) (b : β) (name : String), f = Record.field name (d.lenient b) := by
    have each : f ∈ (field "entryPoint" (.option .string) none).fields ++
      (field "permissions" (.list .string) []).fields ++
      (field "configurations" (.list Configuration.decoder) []).fields ++
      (field "packageType" PackageType.decoder .runtime).fields ++
      (field "memoryLimit" (.option .string) none).fields ++
      (field "envVariables" (.list .string) []).fields := mem
    simp only [field, Record.defaulting, List.cons_append, List.nil_append, List.mem_cons, List.not_mem_nil,
      or_false] at each
    rcases each with rfl | rfl | rfl | rfl | rfl | rfl <;> exact ⟨_, _, _, _, rfl⟩
  obtain ⟨_, d, b, name, rfl⟩ := named
  exact lenient d b name

/-- An object is metadata, each field of which has the value under its own name if that
fits and is missing otherwise. -/
theorem decodeTree_obj (sorted : Members.Sorted ms) :
    decodeTree decoder (.obj ms) = .ok {
      entryPoint := read ms "entryPoint" (.option .string) none
      permissions := read ms "permissions" (.list .string) []
      configurations := read ms "configurations" (.list Configuration.decoder) []
      packageType := read ms "packageType" PackageType.decoder .runtime
      memoryLimit := read ms "memoryLimit" (.option .string) none
      envVariables := read ms "envVariables" (.list .string) [] } := by
  rw [decodeTree, decoder, Record.decoder_obj sorted fun m _ f mem _ => check_eq_ok mem _ _]
  simp only [record, Functor.map, Seq.seq, Pure.pure, build_field]
  rfl

/-! ### Values of no use -/

/-- A value does not fit a decoder, or what it stands for is of no use. -/
def voidFor (d : Decoder α) (useless : α → Bool) (j : Json) : Bool :=
  (decodeTree d j).toOption.all useless

/-- A value under a name is of no use: it does not fit the field of that name, or it is an
empty entry point or a memory limit that is none. -/
def isVoid : String → Json → Bool
  | "entryPoint" => voidFor (.option .string) fun entry => entry.any (· == "")
  | "permissions" => voidFor (.list .string) fun _ => false
  | "configurations" => voidFor (.list Configuration.decoder) fun _ => false
  | "packageType" => voidFor PackageType.decoder fun _ => false
  | "memoryLimit" => voidFor (.option .string) fun limit => limit.any (Memory.parseLimit · == 0)
  | "envVariables" => voidFor (.list .string) fun _ => false
  | _ => fun _ => false

/-- Metadata without the values that are of no use. -/
def purge : Json → Json
  | .obj ms => .obj (ms.filter fun m => !isVoid m.1 m.2)
  | j => j

/-- A field without a value of no use. -/
theorem read_purged {name : String} {d : Decoder α} {useless : α → Bool} (known : isVoid name = voidFor d useless)
    (sorted : Members.Sorted ms) (a : α) :
    read (ms.filter fun m => !isVoid m.1 m.2) name d a =
      (((Members.get? name ms).bind fun j => (decodeTree d j).toOption).filter (!useless ·)).getD a := by
  rw [read, Members.get?_filter _ sorted]
  cases Members.get? name ms with
  | none => rfl
  | some j =>
      rw [Option.filter_some, Option.bind_some, known, voidFor]
      cases decoded : (decodeTree d j).toOption with
      | none => simp
      | some b => by_cases bad : useless b = true <;> simp [decoded, bad, Option.filter_some]

/-- What a package contributes by its metadata: steps, and a limit for its role. -/
def gist (m : Metadata) : List Spec.Step × PackageType × UInt64 :=
  (m.steps, m.packageType, m.limit)

/-- The metadata without an empty entry point and without a memory limit that is none. -/
def trim (m : Metadata) : Metadata :=
  { m with
    entryPoint := m.entryPoint.filter fun entry => !(entry == "")
    memoryLimit := m.memoryLimit.filter fun limit => !(Memory.parseLimit limit == 0) }

theorem gist_trim (m : Metadata) : m.trim.gist = m.gist := by
  have steps : m.trim.steps = m.steps := by
    have twice : (m.entryPoint.filter fun entry => !(entry == "")).filter (· ≠ "") =
        m.entryPoint.filter (· ≠ "") := by
      cases m.entryPoint with
      | none => rfl
      | some entry => by_cases empty : entry = "" <;> simp [Option.filter_some, empty]
    simp only [Metadata.steps, trim, twice]
  have limit : m.trim.limit = m.limit := by
    simp only [Metadata.limit, trim]
    cases m.memoryLimit with
    | none => rfl
    | some limit => by_cases none : Memory.parseLimit limit = 0 <;> simp [Option.filter_some, none]
  rw [gist, gist, steps, limit]
  rfl

theorem getD_filter_any (x : Option (Option String)) (useless : String → Bool) :
    (x.filter fun y => !y.any useless).getD none = (x.getD none).filter (!useless ·) := by
  rcases x with _ | (_ | text)
  · rfl
  · rfl
  · by_cases bad : useless text = true <;> simp [Option.filter_some, bad]

/-- An object without values of no use is trimmed metadata. -/
theorem decodeTree_purge (ordered : Members.Sorted ms) (decoded : decodeTree decoder (.obj ms) = .ok m) :
    decodeTree decoder (purge (.obj ms)) = .ok m.trim := by
  have still : Members.Sorted (ms.filter fun m => !isVoid m.1 m.2) := List.Pairwise.filter _ ordered
  have same {β : Type} {name : String} {d : Decoder β} (known : isVoid name = voidFor d fun _ => false) (b : β) :
      read (ms.filter fun m => !isVoid m.1 m.2) name d b = read ms name d b := by
    rw [read_purged known ordered, read]
    cases (Members.get? name ms).bind fun j => (decodeTree d j).toOption <;> rfl
  have shorter {name : String} {useless : String → Bool}
      (known : isVoid name = voidFor (.option .string) fun y => y.any useless) :
      read (ms.filter fun m => !isVoid m.1 m.2) name (.option .string) none =
        (read ms name (.option .string) none).filter (!useless ·) := by
    rw [read_purged known ordered, getD_filter_any, read]
  rw [decodeTree_obj ordered] at decoded
  cases decoded
  rw [purge, decodeTree_obj still, Except.ok.injEq, trim, Metadata.mk.injEq]
  exact ⟨shorter rfl, same rfl _, same rfl _, same rfl _, shorter rfl, same rfl _⟩

/-- Without values of no use, metadata contributes what it contributes with them. -/
theorem gist_of_purge (sorted : j.Sorted) (decoded : decodeTree decoder j = .ok m) :
    ∃ m', decodeTree decoder (purge j) = .ok m' ∧ m'.gist = m.gist := by
  cases j with
  | obj ms => exact ⟨m.trim, decodeTree_purge (Json.sorted_obj.mp sorted).1 decoded, gist_trim m⟩
  | _ => exact ⟨m, decoded, rfl⟩

/-- The metadata of a document, if it is the document of any. -/
def ofDocument? (j : Json) : Option Metadata :=
  (decodeTree decoder j).toOption

/-- The document of some metadata, without values of no use. -/
def purge? (j : Json) : Option Json :=
  (ofDocument? j).map fun _ => purge j

theorem gist_of_purge? (sorted : j.Sorted) :
    ((purge? j).bind ofDocument?).map gist = (ofDocument? j).map gist := by
  cases decoded : decodeTree decoder j with
  | error e => simp [purge?, ofDocument?, decoded, Except.toOption]
  | ok m =>
      obtain ⟨m', purged, same⟩ := gist_of_purge sorted decoded
      simp [purge?, ofDocument?, decoded, purged, same, Except.toOption]

end Metadata

/-! ### What packages contribute together -/

theorem contributionSteps_congr {ms ns : List Metadata} (same : ms.map Metadata.gist = ns.map Metadata.gist) :
    contributionSteps ms = contributionSteps ns := by
  have steps (ms : List Metadata) : ms.flatMap Metadata.steps = (ms.map Metadata.gist).flatMap (·.1) := by
    rw [List.flatMap_map]
    rfl
  have limit (ms : List Metadata) : limit? ms = ((ms.map Metadata.gist).foldl
      (fun t x => if x.2.2 = 0 then t else t.record x.2.1 x.2.2) OverrideTable.empty).resolve := by
    rw [List.foldl_map]
    rfl
  rw [contributionSteps, contributionSteps, steps, limit, same, ← steps, ← limit]

/-- The metadata that can be read is that of the documents that can be. -/
theorem readable_eq (h : Host) (packages : List Package) :
    readable h packages = (packages.map fun p => (h.loadDocument p.metadataPath).toOption).filterMap
      (·.bind Metadata.ofDocument?) := by
  rw [List.filterMap_map]
  refine List.filterMap_congr fun p _ => ?_
  simp only [Metadata.load, Host.loadDecoded, Function.comp_apply]
  cases h.loadDocument p.metadataPath with
  | error e => rfl
  | ok j =>
      change Except.toOption ((decodeTree Metadata.decoder j).mapError _) = Except.toOption _
      cases decodeTree Metadata.decoder j <;> rfl

/-- Packages without metadata and values of no use are not missed. -/
theorem gists_purge {docs : List (Option Json)} (sorted : ∀ j, some j ∈ docs → j.Sorted) :
    (((docs.filterMap (·.bind Metadata.purge?)).map some).filterMap (·.bind Metadata.ofDocument?)).map
      Metadata.gist = (docs.filterMap (·.bind Metadata.ofDocument?)).map Metadata.gist := by
  rw [List.filterMap_map, List.filterMap_filterMap, List.map_filterMap, List.map_filterMap]
  refine List.filterMap_congr fun doc mem => ?_
  cases doc with
  | none => rfl
  | some j => exact Metadata.gist_of_purge? (sorted j mem)

end Sandbox.Package
