import Mathlib.Data.List.Induction
import Sandbox.Proofs.Generate.Contents
import Sandbox.Proofs.Generate.Stages
import Sandbox.Proofs.Spec.Commute

/-!
Whose memory limit counts.

Of what is recorded in an override table, the last value for an application wins, or the
last one for a runtime if there is none (`OverrideTable.resolve_ofRecords`). A package
records its limit under its role. It records nothing if it cannot be read or has no limit,
and a text that denotes no limit is no limit.

So the limit of an instance depends on nothing but the order of the packages within each
role (`Generator.limit_of_build`). Without a limit that counts, nothing is set and no
section is made for it.
-/

namespace Sandbox

/-! ### Recorded values -/

namespace OverrideTable

variable {α : Type} {type : PackageType}

/-- The slot of a role. -/
def slot (t : OverrideTable α) : PackageType → Option α
  | .runtime => t.runtime
  | .application => t.application

theorem slot_record (t : OverrideTable α) (type other : PackageType) (a : α) :
    (t.record other a).slot type = if other = type then some a else t.slot type := by
  cases type <;> cases other <;> rfl

/-- The table after some records, one after the other. -/
def ofRecords (records : List (PackageType × α)) : OverrideTable α :=
  records.foldl (fun t r => t.record r.1 r.2) .empty

/-- The last value that is recorded for a role. -/
def last? (type : PackageType) (records : List (PackageType × α)) : Option α :=
  (records.filter (·.1 = type)).getLast?.map (·.2)

theorem last?_concat (type : PackageType) (records : List (PackageType × α)) (r : PackageType × α) :
    last? type (records ++ [r]) = if r.1 = type then some r.2 else last? type records := by
  unfold last?
  rw [List.filter_append]
  split
  · next same => rw [List.filter_cons_of_pos (by simpa using same), List.filter_nil, List.getLast?_concat]; rfl
  · next differ => rw [List.filter_cons_of_neg (by simpa using differ), List.filter_nil, List.append_nil]

theorem slot_ofRecords (type : PackageType) (records : List (PackageType × α)) :
    (ofRecords records).slot type = last? type records := by
  induction records using List.reverseRecOn with
  | nil => cases type <;> rfl
  | append_singleton records r ih =>
      rw [last?_concat, ← ih, ← slot_record, ofRecords, List.foldl_concat]
      rfl

/-- The last value for an application wins, then the last one for a runtime. -/
theorem resolve_ofRecords (records : List (PackageType × α)) :
    (ofRecords records).resolve = (last? .application records <|> last? .runtime records) := by
  rw [← slot_ofRecords, ← slot_ofRecords]
  rfl

end OverrideTable

/-! ### Limits of packages -/

namespace Package

variable {h : Host} {packages others : List Package} {ms ns : List Metadata} {type : PackageType}

/-- The limit of the last package of a role that has one. -/
def lastLimit? (type : PackageType) (ms : List Metadata) : Option UInt64 :=
  (ms.filter fun m => m.packageType = type ∧ m.limit ≠ 0).getLast?.map Metadata.limit

/-- What packages record: the limits that they have. -/
def limitRecords (ms : List Metadata) : List (PackageType × UInt64) :=
  (ms.filter (·.limit ≠ 0)).map fun m => (m.packageType, m.limit)

theorem last?_limitRecords (type : PackageType) (ms : List Metadata) :
    OverrideTable.last? type (limitRecords ms) = lastLimit? type ms := by
  unfold OverrideTable.last? limitRecords lastLimit?
  rw [List.filter_map, List.filter_filter, List.getLast?_map, Option.map_map]
  simp only [Function.comp_def, Bool.decide_and]

theorem limit?_eq_resolve (ms : List Metadata) :
    limit? ms = (OverrideTable.ofRecords (limitRecords ms)).resolve := by
  rw [limit?, OverrideTable.ofRecords, limitRecords, List.foldl_map, List.foldl_filter]
  congr 2
  funext t m
  simp [Metadata.recordLimit]

/-- The last limit of an application counts, then the last one of a runtime. -/
theorem limit?_eq (ms : List Metadata) :
    limit? ms = (lastLimit? .application ms <|> lastLimit? .runtime ms) := by
  rw [limit?_eq_resolve, OverrideTable.resolve_ofRecords, last?_limitRecords, last?_limitRecords]

/-- A package can be read and has a role. -/
def hasRole (h : Host) (type : PackageType) (p : Package) : Bool :=
  (Metadata.load h p.metadataPath).toOption.any (·.packageType = type)

/-- The packages of each role are the same in two lists, and in the same order. How the roles
are mixed, and where among them packages stand that cannot be read, does not matter. -/
def SameByRole (h : Host) (packages others : List Package) : Prop :=
  ∀ type, others.filter (hasRole h type) = packages.filter (hasRole h type)

theorem filter_readable (h : Host) (type : PackageType) (packages : List Package) :
    (readable h packages).filter (·.packageType = type) = readable h (packages.filter (hasRole h type)) := by
  rw [readable, readable, List.filter_filterMap, List.filterMap_filter]
  refine List.filterMap_congr fun p _ => ?_
  unfold hasRole
  cases (Metadata.load h p.metadataPath).toOption with
  | none => rfl
  | some m => rfl

theorem SameByRole.filter_readable_eq (same : SameByRole h packages others) (type : PackageType) :
    (readable h others).filter (·.packageType = type) = (readable h packages).filter (·.packageType = type) := by
  rw [filter_readable, filter_readable, same type]

theorem SameByRole.mem_readable_iff (same : SameByRole h packages others) {m : Metadata} :
    m ∈ readable h others ↔ m ∈ readable h packages := by
  have alike : m ∈ (readable h others).filter (·.packageType = m.packageType) ↔
      m ∈ (readable h packages).filter (·.packageType = m.packageType) := by
    rw [same.filter_readable_eq]
  simpa using alike

theorem lastLimit?_filter (type : PackageType) (ms : List Metadata) :
    lastLimit? type (ms.filter (·.packageType = type)) = lastLimit? type ms := by
  unfold lastLimit?
  rw [List.filter_filter]
  congr 3
  funext m
  by_cases same : m.packageType = type <;> simp [same]

theorem SameByRole.limit?_eq (same : SameByRole h packages others) :
    limit? (readable h others) = limit? (readable h packages) := by
  have last (type : PackageType) : lastLimit? type (readable h others) = lastLimit? type (readable h packages) := by
    rw [← lastLimit?_filter, same.filter_readable_eq, lastLimit?_filter]
  rw [Package.limit?_eq, Package.limit?_eq, last, last]

end Package

/-! ### The limit of an instance -/

namespace Spec

variable {s s' t granted : Spec} {steps : List Step}

/-- The place of the memory limit. -/
def limitPath : List String :=
  ["linux", "resources", "memory", "limit"]

/-- What is the same at a place is the same below it. -/
theorem value?_below {p : List String} (same : s'.value? p = s.value? p) (q : List String) :
    s'.value? (p ++ q) = s.value? (p ++ q) := by
  unfold value? at same ⊢
  rw [Json.value?_append, Json.value?_append, same]

theorem value?_memory_of_run (ok : s.run steps = (.ok (), s'))
    (off : ∀ step ∈ steps, step.target ≠ .memoryLimit) :
    s'.value? ["linux", "resources", "memory"] = s.value? ["linux", "resources", "memory"] := by
  refine value?_of_run_apart ok fun step mem => ?_
  have here := off step mem
  cases step <;> simp_all [Step.target, Target.places]

theorem value?_resources_of_run (ok : s.run steps = (.ok (), s'))
    (off : ∀ step ∈ steps, step.target ≠ .memoryLimit ∧ step.target ≠ .devices) :
    s'.value? ["linux", "resources"] = s.value? ["linux", "resources"] := by
  refine value?_of_run_apart ok fun step mem => ?_
  have here := off step mem
  cases step <;> simp_all [Step.target, Target.places]

/-- What becomes of the limit of a template, where the graphics have been granted first. -/
structure Limited (limit : Option UInt64) (t granted s : Spec) : Prop where
  /-- A limit is set, and otherwise that of the template stays, if it has one. -/
  value : s.value? limitPath = (limit.map (fun bytes => .nat bytes.toNat) <|> t.value? limitPath)
  /-- Without a limit the section for it is that of the template. -/
  memory : limit = none → s.value? ["linux", "resources", "memory"] = t.value? ["linux", "resources", "memory"]
  /-- Without a limit nothing is made of the resources but what the graphics make of them. -/
  resources : limit = none → s.value? ["linux", "resources"] = granted.value? ["linux", "resources"]

theorem limit_of_setMemoryLimit {bytes : UInt64} (ok : s.setMemoryLimit bytes = (.ok (), s')) :
    s'.value? limitPath = some (.nat bytes.toNat) := by
  obtain ⟨v, made, written⟩ := (updates_of_put ok).value?
  cases made
  exact written

end Spec

namespace Generator

open Spec

variable {g : Generator} {h : Host} {a : Application} {packages others : List Package} {s t granted : Spec}
  {grant : Graphics.Grant} {ms : List Package.Metadata} {name : String} {dir : Path}

theorem target_of_grant : ∀ step ∈ grant.steps, step.target ≠ .memoryLimit := by
  intro step mem
  simp only [Graphics.Grant.steps, List.mem_append, List.mem_map] at mem
  rcases mem with (⟨_, _, rfl⟩ | ⟨_, _, rfl⟩) | ⟨_, _, rfl⟩ <;> simp [Spec.Step.target]

theorem target_of_package : ∀ step ∈ ms.flatMap Package.Metadata.steps,
    step.target ≠ .memoryLimit ∧ step.target ≠ .devices := by
  intro step mem
  simp only [Package.Metadata.steps, List.mem_append, List.mem_flatMap, List.mem_map] at mem
  rcases mem with ⟨m, -, ((⟨_, _, rfl⟩ | ⟨_, _, rfl⟩) | ⟨_, _, rfl⟩) | ⟨_, _, rfl⟩⟩ <;> simp [Spec.Step.target]

theorem target_of_own :
    ∀ step ∈ hookSteps g.config (g.config.specPath a.instanceId) ++ g.settlingSteps a name dir,
      step.target ≠ .memoryLimit ∧ step.target ≠ .devices := by
  rw [List.forall_mem_append]
  constructor
  · simp [hookSteps, Spec.Step.target]
  · simp [settlingSteps, identitySteps, displaySteps, storageSteps, ipcSteps, bindSame, Spec.Step.target]

/-- Only one step is about the limit, and it comes when the packages have contributed. -/
theorem limited_of_run (grants : t.run grant.steps = (.ok (), granted))
    (run : t.run (g.buildSteps a grant ms name dir) = (.ok (), s)) :
    Limited (Package.limit? ms) t granted s := by
  rw [buildSteps, Package.contributionSteps, List.append_assoc, List.append_assoc] at run
  obtain ⟨s₀, first, run⟩ := run_append run
  cases grants.symm.trans first
  obtain ⟨s₂, contributed, own⟩ := run_append run
  obtain ⟨s₁, merged, limits⟩ := run_append contributed
  have template := value?_memory_of_run grants target_of_grant
  have before := value?_resources_of_run merged target_of_package
  have after := value?_resources_of_run own target_of_own
  cases limit : Package.limit? ms with
  | none =>
      rw [limit] at limits
      cases limits
      have resources := after.trans before
      have memory : s.value? ["linux", "resources", "memory"] = t.value? ["linux", "resources", "memory"] :=
        (value?_below resources ["memory"]).trans template
      exact ⟨value?_below memory ["limit"], fun _ => memory, fun _ => resources⟩
  | some bytes =>
      rw [limit] at limits
      obtain ⟨s₃, set, done⟩ := run_cons_eq_ok limits
      cases done
      have value : s.value? limitPath = some (.nat bytes.toNat) :=
        (value?_below after ["memory", "limit"]).trans (limit_of_setMemoryLimit set)
      refine ⟨value, ?_, ?_⟩
      · rintro ⟨⟩
      · rintro ⟨⟩

theorem limited_of_build (ok : g.build h a packages = .ok s) :
    ∃ t graphics, g.template h = .ok t ∧ Graphics.load h g.config.graphicsDescriptor = .ok graphics ∧
      Limited (Package.limit? (Package.readable h packages)) t ((graphics.grant h g.accounts).apply t).2 s := by
  obtain ⟨t, graphics, name, dir, template, descriptor, -, run⟩ := run_of_build ok
  exact ⟨t, graphics, template, descriptor, limited_of_run (graphics.run_added h g.accounts t) run⟩

/-- What hinders building is in the packages of each role, in any order. -/
theorem hindered_iff_of_sameByRole (same : Package.SameByRole h packages others) (stage : Stage) :
    g.Hindered h a others stage ↔ g.Hindered h a packages stage := by
  cases stage with
  | package => simp only [Hindered, same.mem_readable_iff]
  | _ => rfl

theorem build_of_sameByRole (same : Package.SameByRole h packages others) (ok : g.build h a packages = .ok s) :
    ∃ s', g.build h a others = .ok s' := by
  have free := (build_passesThrough g h a packages).ok_iff.mp ⟨s, ok⟩
  refine (build_passesThrough g h a others).ok_iff.mpr fun stage mem => ?_
  rw [hindered_iff_of_sameByRole same]
  exact free stage mem

/-- The limit of an instance is that of the last application that has one, or else that of
the last runtime, or else what the template has in its place, and then nothing is made for
it. Other orders that leave the packages of each role in theirs come to the same limit. It
is the law of all override tables, whatever is recorded. -/
theorem limit_of_build (g : Generator) (h : Host) (a : Application) (packages : List Package) (s : Spec)
    (ok : g.build h a packages = .ok s) :
    (∃ t graphics, g.template h = .ok t ∧ Graphics.load h g.config.graphicsDescriptor = .ok graphics ∧
      Limited
        (Package.lastLimit? .application (Package.readable h packages) <|>
          Package.lastLimit? .runtime (Package.readable h packages))
        t ((graphics.grant h g.accounts).apply t).2 s) ∧
    (∀ others, Package.SameByRole h packages others →
      ∃ s', g.build h a others = .ok s' ∧ s'.value? limitPath = s.value? limitPath) ∧
    ∀ (α : Type) (records : List (PackageType × α)),
      (OverrideTable.ofRecords records).resolve =
        (OverrideTable.last? .application records <|> OverrideTable.last? .runtime records) := by
  obtain ⟨t, graphics, template, descriptor, limited⟩ := limited_of_build ok
  refine ⟨⟨t, graphics, template, descriptor, ?_⟩, fun others same => ?_, fun _ => OverrideTable.resolve_ofRecords⟩
  · rwa [← Package.limit?_eq]
  · obtain ⟨s', ok'⟩ := build_of_sameByRole same ok
    obtain ⟨t', _, template', -, limited'⟩ := limited_of_build ok'
    cases template.symm.trans template'
    exact ⟨s', ok', by rw [limited'.value, limited.value, same.limit?_eq]⟩

end Generator

/-! ### A device with limits of both roles -/

namespace Sample

/-- A host with two applications, one of them with a limit of zero. -/
def limiting : Host :=
  host [
    ([name "app.json"], document (.obj [("packageType", .str "application"), ("memoryLimit", .str "512MB")])),
    ([name "zero.json"], document (.obj [("packageType", .str "application"), ("memoryLimit", .str "0G")]))]

/-- The packages with limits, and one that cannot be read. The third is a runtime. -/
def limited : List Package :=
  [⟨.ofString "/app.json", .ofString "/layer"⟩, ⟨.ofString "/zero.json", .ofString "/layer"⟩, package,
    ⟨.ofString "/none", .ofString "/layer"⟩]

theorem limiting_builds : ∃ s, generator.build limiting (application first) limited = .ok s :=
  exists_ok (by decide +kernel)

end Sample

namespace Generator

open Spec

/-- The application counts, although the runtime comes behind it, and also when the
applications come last. -/
theorem limit_of_build_sample :
    let others := Sample.limited.drop 2 ++ Sample.limited.take 2
    ∃ s s', Sample.generator.build Sample.limiting (Sample.application Sample.first) Sample.limited = .ok s ∧
      Sample.generator.build Sample.limiting (Sample.application Sample.first) others = .ok s' ∧
      s.value? limitPath = some (.nat (512 * 1024 * 1024)) ∧ s'.value? limitPath = s.value? limitPath := by
  intro others
  obtain ⟨s, ok⟩ := Sample.limiting_builds
  obtain ⟨⟨_, _, -, -, limited⟩, reordered, -⟩ := limit_of_build _ _ _ _ s ok
  have same : Package.SameByRole Sample.limiting Sample.limited others := by
    intro type
    cases type <;> decide +kernel
  obtain ⟨s', ok', equal⟩ := reordered others same
  refine ⟨s, s', ok, ok', limited.value.trans ?_, equal⟩
  have limit : (Package.lastLimit? .application (Package.readable Sample.limiting Sample.limited) <|>
      Package.lastLimit? .runtime (Package.readable Sample.limiting Sample.limited)) = some (512 * 1024 * 1024) := by
    decide +kernel
  rw [limit]
  rfl

end Generator

end Sandbox
