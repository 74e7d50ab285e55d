import Sandbox.Proofs.Generate.Degraded
import Sandbox.Proofs.Generate.Place

/-!
What stands in the lists of a specification.

Building amounts to one run of steps on the template (`Generator.run_of_build`): those of
the graphics, those of the packages, the hooks, and what the generator settles. A list is
therefore the one of the template with what these steps give behind it, block after block
(`Generator.lists_of_build`, `Generator.command_and_environment_of_build`). The graphics
are the one block that can be missing, and then all of it is.
-/

namespace Sandbox

open Section

/-! ### Blocks of steps -/

namespace Graphics

open Spec

/-- What of the graphics comes to a specification: everything, or nothing where the grant
is refused. -/
def added (graphics : Graphics) (h : Host) (accounts : Accounts) (s : Spec) : Graphics :=
  if ((graphics.grant h accounts).apply s).1.isOk then graphics else ⟨[], [], []⟩

theorem run_added (graphics : Graphics) (h : Host) (accounts : Accounts) (s : Spec) :
    s.run ((graphics.added h accounts s).grant h accounts).steps =
      (.ok (), ((graphics.grant h accounts).apply s).2) := by
  unfold added
  by_cases fits : (graphics.grant h accounts).Fits s
  · obtain ⟨t, run, applied⟩ := Grant.apply_of_fits fits
    rw [applied]
    exact run
  · obtain ⟨e, -, applied⟩ := Grant.apply_of_not_fits fits
    rw [applied]
    rfl

end Graphics

section

open Spec

variable {c : Config} {p : Path}

/-- Each of the stages is given the launcher's hook for it, and no other stage is given
any. -/
theorem flatMap_gives_hooks_hookSteps (stage : String) :
    (hookSteps c p).flatMap (Spec.Step.gives ["hooks", stage]) =
      if stage ∈ hookStages then [(launcherHook c stage p).toJson] else [] := by
  have each (k : String) : (Spec.Step.addHook k (launcherHook c k p)).gives ["hooks", stage] =
      if k = stage then [(launcherHook c stage p).toJson] else [] := by
    by_cases same : k = stage
    · simp [Spec.Step.gives, Spec.Step.additions, same]
    · simp [Spec.Step.gives, Spec.Step.additions, same]
  rw [hookSteps, List.flatMap_map, funext each]
  -- No stage is there twice.
  by_cases mem : stage ∈ hookStages
  · rw [if_pos mem]
    simp only [hookStages, List.mem_cons, List.not_mem_nil, or_false] at mem
    rcases mem with rfl | rfl | rfl | rfl <;> simp [hookStages]
  · rw [if_neg mem]
    refine List.flatMap_eq_nil_iff.mpr fun k there => if_neg ?_
    rintro rfl
    exact mem there

theorem flatMap_gives_hookSteps {path : List String} (apart : ∀ stage, ["hooks", stage] ≠ path) :
    (hookSteps c p).flatMap (Spec.Step.gives path) = [] :=
  flatMap_gives_map_eq_nil (fun _ => by simp [Spec.Step.gives, Spec.Step.additions, apart]) _

end

namespace Package

open Spec

variable {ms : List Metadata}

/-- What packages give to the command are their programs. -/
theorem flatMap_gives_args_contributionSteps :
    (contributionSteps ms).flatMap (Spec.Step.gives ["process", "args"]) =
      (ms.filterMap fun m => m.entryPoint.filter (· ≠ "")).map .str := by
  have each (m : Metadata) : m.steps.flatMap (Spec.Step.gives ["process", "args"]) =
      (m.entryPoint.filter (· ≠ "")).toList.map .str := by
    simp only [Metadata.steps, List.flatMap_append]
    rw [flatMap_gives_map fun _ => rfl, flatMap_gives_map_eq_nil fun _ => rfl,
      flatMap_gives_map_eq_nil fun _ => rfl, flatMap_gives_map_eq_nil fun _ => rfl]
    simp only [List.append_nil]
  have limit : ((limit? ms).toList.map Spec.Step.setMemoryLimit).flatMap (Spec.Step.gives ["process", "args"]) = [] :=
    flatMap_gives_map_eq_nil (fun _ => rfl) _
  rw [contributionSteps, List.flatMap_append, limit, List.append_nil, List.flatMap_assoc, funext each,
    ← List.map_flatMap, List.filterMap_eq_flatMap_toList]

/-- What packages give to the environment are their variables and entries, package by
package. -/
theorem flatMap_gives_env_contributionSteps :
    (contributionSteps ms).flatMap (Spec.Step.gives ["process", "env"]) =
      (ms.flatMap fun m => m.configurations.map Configuration.entry ++ m.envVariables).map .str := by
  have each (m : Metadata) : m.steps.flatMap (Spec.Step.gives ["process", "env"]) =
      (m.configurations.map Configuration.entry ++ m.envVariables).map .str := by
    simp only [Metadata.steps, List.flatMap_append]
    rw [flatMap_gives_map_eq_nil fun _ => rfl, flatMap_gives_map_eq_nil fun _ => rfl,
      flatMap_gives_map fun _ => rfl, flatMap_gives_map fun _ => rfl]
    simp [Function.comp_def]
  have limit : ((limit? ms).toList.map Spec.Step.setMemoryLimit).flatMap (Spec.Step.gives ["process", "env"]) = [] :=
    flatMap_gives_map_eq_nil (fun _ => rfl) _
  rw [contributionSteps, List.flatMap_append, limit, List.append_nil, List.flatMap_assoc, funext each,
    ← List.map_flatMap]

/-- To the other lists they give nothing. -/
theorem flatMap_gives_contributionSteps {path : List String} (args : ["process", "args"] ≠ path)
    (env : ["process", "env"] ≠ path) : (contributionSteps ms).flatMap (Spec.Step.gives path) = [] := by
  refine List.flatMap_eq_nil_iff.mpr fun step mem => ?_
  have kind := Generator.isContribution_of_mem step mem
  cases step with
  | pushArg | pushEnvEntry => simp [Spec.Step.gives, Spec.Step.additions, args, env]
  | addCapability | setMemoryLimit => rfl
  | _ => cases kind

end Package

namespace Generator

open Spec

variable {g : Generator} {h : Host} {a : Application} {packages : List Package} {s t : Spec}
  {grant : Graphics.Grant} {ms : List Package.Metadata} {name : String} {dir : Path}

/-- The steps by which the generator settles what is its own. -/
def settlingSteps (g : Generator) (a : Application) (name : String) (dir : Path) : List Spec.Step :=
  identitySteps g.config a (videoGid g.config g.accounts) ++
    (displaySteps a name dir ++ storageSteps g.config a ++ ipcSteps g.config a)

/-- The steps that lead from the template to a specification. -/
def buildSteps (g : Generator) (a : Application) (grant : Graphics.Grant) (ms : List Package.Metadata)
    (name : String) (dir : Path) : List Spec.Step :=
  grant.steps ++ Package.contributionSteps ms ++ hookSteps g.config (g.config.specPath a.instanceId) ++
    g.settlingSteps a name dir

/-- Building amounts to one run of steps on the template. -/
theorem run_of_build (ok : g.build h a packages = .ok s) :
    ∃ t graphics name dir, g.template h = .ok t ∧
      Graphics.load h g.config.graphicsDescriptor = .ok graphics ∧
      socketParts a.displaySocket = .ok (name, dir) ∧
      t.run (g.buildSteps a ((graphics.added h g.accounts t).grant h g.accounts) (Package.readable h packages)
        name dir) = (.ok (), s) := by
  obtain ⟨t, graphics, template, descriptor, assembled⟩ := build_eq_ok ok
  obtain ⟨s₁, s₂, contributed, hooked, settled⟩ := assemble_eq_ok assembled
  obtain ⟨s₃, name, dir, identity, parts, rest⟩ := settle_eq_ok settled
  have granted := graphics.run_added h g.accounts t
  refine ⟨t, graphics, name, dir, template, descriptor, parts, ?_⟩
  exact run_append_of_ok (run_append_of_ok (run_append_of_ok granted contributed) hooked)
    (run_append_of_ok identity rest)

theorem flatMap_gives_buildSteps (path : List String) :
    (g.buildSteps a grant ms name dir).flatMap (Spec.Step.gives path) =
      grant.steps.flatMap (Spec.Step.gives path) ++
        (Package.contributionSteps ms).flatMap (Spec.Step.gives path) ++
        (hookSteps g.config (g.config.specPath a.instanceId)).flatMap (Spec.Step.gives path) ++
        (g.settlingSteps a name dir).flatMap (Spec.Step.gives path) := by
  rw [buildSteps, List.flatMap_append, List.flatMap_append, List.flatMap_append]

end Generator

/-! ### A device with something of each kind -/

namespace Sample

/-- A file that is found at the same place in an instance. -/
def library : Json :=
  .ofList [("source", .str "/lib"), ("destination", .str "/lib")]

/-- A host with a template that has a mount, a descriptor of which one file and one group
are of use, and a package with a variable. -/
def stocked : Host :=
  host [
    ([name "mounting.json"], document (.obj [("mounts", .arr [.str "proc"])])),
    ([name "needs.json"], document (.obj [("vendorGpuSupport",
      .obj [("files", .arr [library, .null]), ("groupIds", .strings ["nobody", "video"])])])),
    ([name "variable.json"], document (.obj [
      ("configurations", .arr [.obj [("key", .str "A"), ("value", .arr [.nat 1, .str "b"])]]),
      ("entryPoint", .str "/bin/more")]))]

/-- The generator that reads them. -/
def stocking : Generator where
  config := { config with
    baseTemplate := .ofString "/mounting.json"
    graphicsDescriptor := .ofString "/needs.json" }
  accounts := ⟨[("video", 44)], []⟩

/-- Packages that contribute, and between them one that cannot be read. -/
def contributing : List Package :=
  [package, ⟨.ofString "/none", .ofString "/layer"⟩, ⟨.ofString "/variable.json", .ofString "/layer"⟩]

theorem stocking_template : stocking.template stocked = .ok ⟨[("mounts", .arr [.str "proc"])]⟩ := by
  decide +kernel

/-- A run on fixed inputs succeeds if it is seen to come to something. -/
theorem exists_ok {x : Except StageFailure Spec} (some : x.toOption.isSome = true) : ∃ s, x = .ok s := by
  cases x with
  | error e => cases some
  | ok s => exact ⟨s, rfl⟩

theorem stocking_builds : ∃ s, stocking.build stocked (application first) contributing = .ok s :=
  exists_ok (by decide +kernel)

end Sample

/-! ### The lists -/

namespace Generator

open Spec

variable {g : Generator} {h : Host} {a : Application} {packages : List Package} {s t : Spec}
  {grant : Graphics.Grant} {ms : List Package.Metadata} {name : String} {dir : Path}

/-- The mounts that the generator has of its own: the display socket, the storage and the
socket of the instance. -/
def ownMounts (c : Config) (a : Application) : List Mount :=
  let socket := c.ipcSocketPath a.instanceId
  [.bind a.displaySocket.display a.displaySocket.display, .bind a.storagePath.display c.storageContainerPath,
    .bind socket.display socket.display]

/-- What building makes of a template, the command and the environment apart. The lists
have more items behind those of the template, and the user is set. -/
structure Lists (g : Generator) (a : Application) (graphics : Graphics) (t s : Spec) : Prop where
  mounts : Appends
    ((graphics.files.filterMap Graphics.place?).map (fun place => Item.bind place.1 place.2 ["ro"]) ++
      [Item.bind a.displaySocket.display a.displaySocket.display [],
        Item.bind a.storagePath.display g.config.storageContainerPath [],
        Item.bind (g.config.ipcSocketPath a.instanceId).display (g.config.ipcSocketPath a.instanceId).display []])
    (t.value? ["mounts"]) (s.value? ["mounts"])
  uidMappings : Appends [Item.mapping 0 a.uid] (t.value? ["linux", "uidMappings"]) (s.value? ["linux", "uidMappings"])
  gidMappings : Appends
    ((graphics.groupIds.filterMap fun name => (g.accounts.group name).toOption).map
      (fun gid => Item.mapping gid gid) ++ [Item.mapping 0 a.gid])
    (t.value? ["linux", "gidMappings"]) (s.value? ["linux", "gidMappings"])
  hooks : ∀ stage ∈ ["createRuntime", "createContainer", "poststart", "poststop"],
    Appends [Item.hook g.config.launcherPath.display
        [g.config.launcherName, "-h", stage, "-c", (g.config.specPath a.instanceId).display, "-v"]]
      (t.value? ["hooks", stage]) (s.value? ["hooks", stage])
  otherHooks : ∀ stage ∉ ["createRuntime", "createContainer", "poststart", "poststop"],
    s.value? ["hooks", stage] = t.value? ["hooks", stage]
  user : s.value? ["process", "user"] =
    some (Item.user ((g.accounts.group g.config.videoGroup).toOption.getD g.config.defaultVideoGid))

/-- The user is set once, and nothing after it writes there. -/
theorem user_of_run (run : t.run (g.buildSteps a grant ms name dir) = (.ok (), s)) :
    s.value? ["process", "user"] = some (Item.user (videoGid g.config g.accounts)) := by
  obtain ⟨s₁, -, settled⟩ := run_append run
  obtain ⟨s₂, set, rest⟩ := run_cons_eq_ok settled
  obtain ⟨v, made, written⟩ := (Spec.Step.updates set rfl).value?
  have kept : s.value? ["process", "user"] = s₂.value? ["process", "user"] := by
    refine value?_of_run rest ?_
    simp [displaySteps, storageSteps, ipcSteps, bindSame, Spec.Step.write?]
  exact kept.trans (written.trans made.symm)

theorem lists_of_run {graphics : Graphics}
    (run : t.run (g.buildSteps a (graphics.grant h g.accounts) ms name dir) = (.ok (), s)) :
    g.Lists a graphics t s := by
  have gained {path : List String} (here : ListPlace path) := gains_of_run run here
  simp only [flatMap_gives_buildSteps] at gained
  -- Apart from the process and the hooks, only the graphics and the generator give anything.
  have granted {path : List String} (here : ListPlace path) (args : ["process", "args"] ≠ path)
      (env : ["process", "env"] ≠ path) (apart : ∀ stage, ["hooks", stage] ≠ path) : Gains
        ((graphics.grant h g.accounts).steps.flatMap (Spec.Step.gives path) ++
          (g.settlingSteps a name dir).flatMap (Spec.Step.gives path))
        (t.value? path) (s.value? path) := by
    have both := gained here
    rwa [Package.flatMap_gives_contributionSteps args env, flatMap_gives_hookSteps apart, List.append_nil,
      List.append_nil] at both
  have hooked (stage : String) : Gains
      (if stage ∈ hookStages then [(launcherHook g.config stage (g.config.specPath a.instanceId)).toJson] else [])
      (t.value? ["hooks", stage]) (s.value? ["hooks", stage]) := by
    have hooks := gained (.hooks stage)
    have own : (g.settlingSteps a name dir).flatMap (Spec.Step.gives ["hooks", stage]) = [] := rfl
    rwa [Graphics.Grant.flatMap_gives_steps (by simp [Graphics.Grant.additions]),
      Package.flatMap_gives_contributionSteps (by simp) (by simp), flatMap_gives_hooks_hookSteps, own,
      List.append_nil] at hooks
  refine ⟨?mounts, ?uidMappings, ?gidMappings, ?hooks, ?otherHooks, user_of_run run⟩
  case mounts =>
    have mounts := granted .mounts (by simp) (by simp) (by simp)
    rw [Graphics.Grant.flatMap_gives_mounts_steps, Graphics.grant, Graphics.map_toJson_filterMap_mount?] at mounts
    exact mounts.appends (List.append_ne_nil_of_right_ne_nil _ (List.cons_ne_nil _ _))
  case uidMappings =>
    have mappings := granted .uidMappings (by simp) (by simp) (by simp)
    rw [Graphics.Grant.flatMap_gives_steps (by simp [Graphics.Grant.additions])] at mappings
    exact mappings.appends (List.cons_ne_nil _ _)
  case gidMappings =>
    have mappings := granted .gidMappings (by simp) (by simp) (by simp)
    rw [Graphics.Grant.flatMap_gives_gidMappings_steps] at mappings
    exact mappings.appends (List.append_ne_nil_of_right_ne_nil _ (List.cons_ne_nil _ _))
  case hooks =>
    intro stage mem
    have here := hooked stage
    rw [if_pos (show stage ∈ hookStages from mem)] at here
    exact here.appends (List.cons_ne_nil _ _)
  case otherHooks =>
    intro stage mem
    have here := hooked stage
    rw [if_neg (show stage ∉ hookStages from mem)] at here
    exact here.eq_of_nil

/-- A specification that has been built holds what the template holds and, behind it, what
was to be added, no more and no less: the mounts, the mappings of users and groups, and
the hooks. Of the graphics everything is added or nothing. Generating writes this very
specification to the path that the hooks name. -/
theorem lists_of_build (g : Generator) (h : Host) (a : Application) (packages : List Package) (s : Spec)
    (ok : g.build h a packages = .ok s) :
    (∃ t graphics, g.template h = .ok t ∧ Graphics.load h g.config.graphicsDescriptor = .ok graphics ∧
      g.Lists a (graphics.added h g.accounts t) t s) ∧
    ∀ w h', g.generate h a packages = (.ok w, h') →
      w = ⟨g.config.specPath a.instanceId, s⟩ ∧
      ∃ h₁, s.save h₁ (g.config.specPath a.instanceId) a.uid a.gid = (.ok (), h') := by
  obtain ⟨t, graphics, name, dir, template, descriptor, -, run⟩ := run_of_build ok
  refine ⟨⟨t, graphics, template, descriptor, lists_of_run run⟩, fun w h' generated => ?_⟩
  obtain ⟨_, ok', written⟩ := generate_eq_ok generated
  cases ok.symm.trans ok'
  obtain ⟨h₁, -, -, saved, rfl⟩ := write_eq_ok written
  exact ⟨rfl, h₁, saved⟩

/-- The mounts, mappings and hooks that a device with something of each kind comes to. -/
theorem lists_of_build_sample :
    let bind (source destination : String) (options : List String) : Json := .obj [("destination", .str destination),
      ("options", .strings options), ("source", .str source), ("type", .str "bind")]
    let mapping (inside outside : Nat) : Json :=
      .obj [("containerID", .nat inside), ("hostID", .nat outside), ("size", .nat 1)]
    ∃ s, Sample.stocking.build Sample.stocked (Sample.application Sample.first) Sample.contributing = .ok s ∧
      s.value? ["mounts"] = some (.arr [.str "proc", bind "/lib" "/lib" ["rbind", "nosuid", "nodev", "ro"],
        bind "/run/display" "/run/display" ["rbind", "nosuid", "nodev"],
        bind "/storage" "/home/private" ["rbind", "nosuid", "nodev"],
        bind "/tmp/appcell/ipc/first.sock" "/tmp/appcell/ipc/first.sock" ["rbind", "nosuid", "nodev"]]) ∧
      s.value? ["linux", "uidMappings"] = some (.arr [mapping 0 1000]) ∧
      s.value? ["linux", "gidMappings"] = some (.arr [mapping 44 44, mapping 0 1000]) ∧
      s.value? ["hooks", "poststop"] = some (.arr [.obj [
        ("args", .strings ["appcell-hook", "-h", "poststop", "-c", "/instances/first/config.json", "-v"]),
        ("path", .str "/usr/bin/appcell-hook")]]) ∧
      s.value? ["hooks", "prestart"] = none ∧
      s.value? ["process", "user"] =
        some (.obj [("additionalGids", .arr [.nat 44]), ("gid", .nat 0), ("uid", .nat 0)]) := by
  intro bind mapping
  obtain ⟨s, ok⟩ := Sample.stocking_builds
  obtain ⟨⟨t, graphics, template, descriptor, lists⟩, -⟩ := lists_of_build _ _ _ _ s ok
  cases template.symm.trans Sample.stocking_template
  have needed : Graphics.load Sample.stocked Sample.stocking.config.graphicsDescriptor =
      .ok ⟨[], ["nobody", "video"], [Sample.library, .null]⟩ := by decide +kernel
  cases descriptor.symm.trans needed
  obtain ⟨_, ⟨⟩, mounts⟩ := lists.mounts
  obtain ⟨_, ⟨⟩, uids⟩ := lists.uidMappings
  obtain ⟨_, ⟨⟩, gids⟩ := lists.gidMappings
  obtain ⟨_, ⟨⟩, hooks⟩ := lists.hooks "poststop" (by simp)
  exact ⟨s, ok, mounts.trans (by decide +kernel), uids.trans (by decide +kernel), gids.trans (by decide +kernel),
    hooks.trans (by decide +kernel), lists.otherHooks "prestart" (by simp), lists.user.trans (by decide +kernel)⟩

/-! ### The command and the environment -/

/-- A specification that has been built has the programs of the packages behind the command
of the template, if there are any, and otherwise the value of the template. Its environment
is that of the template, then what each package adds, and at last the entries of the
generator. -/
theorem command_and_environment_of_build (g : Generator) (h : Host) (a : Application) (packages : List Package)
    (s : Spec) (ok : g.build h a packages = .ok s) :
    ∃ t name dir, g.template h = .ok t ∧ socketParts a.displaySocket = .ok (name, dir) ∧
      Gains (((packages.filterMap fun p => (Package.Metadata.load h p.metadataPath).toOption).filterMap fun m =>
          m.entryPoint.filter (· ≠ "")).map .str)
        (t.value? ["process", "args"]) (s.value? ["process", "args"]) ∧
      Appends
        (((packages.filterMap fun p => (Package.Metadata.load h p.metadataPath).toOption).flatMap (fun m =>
            m.configurations.map (fun c => c.key ++ "=" ++ match c.value with
              | .str text => text
              | value => value.compact) ++
            m.envVariables) ++
          (ownEntries g.config a name dir).map fun entry => entry.1 ++ "=" ++ entry.2).map .str)
        (t.value? ["process", "env"]) (s.value? ["process", "env"]) := by
  obtain ⟨t, graphics, name, dir, template, -, parts, run⟩ := run_of_build ok
  refine ⟨t, name, dir, template, parts, ?_, ?_⟩
  · have args := gains_of_run run .args
    have own : (g.settlingSteps a name dir).flatMap (Spec.Step.gives ["process", "args"]) = [] := rfl
    rwa [flatMap_gives_buildSteps, Graphics.Grant.flatMap_gives_steps (by simp [Graphics.Grant.additions]),
      Package.flatMap_gives_args_contributionSteps, flatMap_gives_hookSteps (by simp), own, List.append_nil,
      List.append_nil] at args
  · have env := gains_of_run run .env
    have own : (g.settlingSteps a name dir).flatMap (Spec.Step.gives ["process", "env"]) =
        ((ownEntries g.config a name dir).map fun entry => entry.1 ++ "=" ++ entry.2).map .str := rfl
    rw [flatMap_gives_buildSteps, Graphics.Grant.flatMap_gives_steps (by simp [Graphics.Grant.additions]),
      Package.flatMap_gives_env_contributionSteps, flatMap_gives_hookSteps (by simp), own, List.append_nil,
      List.nil_append, ← List.map_append] at env
    exact env.appends (by simp [ownEntries])

theorem command_and_environment_of_build_sample :
    ∃ s, Sample.stocking.build Sample.stocked (Sample.application Sample.first) Sample.contributing = .ok s ∧
      s.value? ["process", "args"] = some (.strings ["/bin/app", "/bin/more"]) ∧
      s.value? ["process", "env"] = some (.strings (["HOME=/elsewhere", "A=[1,\x22b\x22]"] ++
        (ownEntries Sample.stocking.config (Sample.application Sample.first) "display" (.ofString "/run")).map
          fun entry => entry.1 ++ "=" ++ entry.2)) := by
  obtain ⟨s, ok⟩ := Sample.stocking_builds
  obtain ⟨t, name, dir, template, parts, args, env⟩ := command_and_environment_of_build _ _ _ _ s ok
  cases template.symm.trans Sample.stocking_template
  have split : socketParts (Sample.application Sample.first).displaySocket = .ok ("display", .ofString "/run") := by
    decide +kernel
  cases parts.symm.trans split
  obtain ⟨_, before, after⟩ := args.appends (by decide +kernel)
  cases before
  obtain ⟨_, before', after'⟩ := env
  cases before'
  refine ⟨s, ok, after.trans ?_, after'.trans ?_⟩
  · decide +kernel
  · decide +kernel

end Generator

end Sandbox
