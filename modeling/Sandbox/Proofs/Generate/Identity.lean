import Sandbox.Proofs.Generate.Sample
import Sandbox.Proofs.Json.Tree
import Sandbox.Proofs.Spec.Environment
import Sandbox.Proofs.Spec.Mask

/-!
Packages have no say in what an instance is.

Two runs that differ in their packages alone are followed side by side. The template
and the graphics are the same in both. The steps of packages write to few places,
which the mask of packages leaves free (`alike_of_contribution`); the steps after them
are the same in both runs and keep alike what is alike (`alike_of_settling`). The
environment is one of the free places, but there the generator appends last
(`environment_of_settle`).
-/

namespace Sandbox

open Section

namespace Spec

variable {s s' t t' : Spec} {step : Step} {steps : List Step}

/-! ### The two kinds of steps -/

/-- The places that packages write to. -/
def packagePlaces : List (List String) :=
  [["process", "args"], ["process", "env"], ["process", "capabilities"], ["linux", "capabilities"],
    ["linux", "resources", "memory", "limit"]]

def memoryMask : String → Mask := fun k =>
  if k = "limit" then .any else .same

def resourcesMask : String → Mask := fun k =>
  if k = "memory" then .within memoryMask else .same

def linuxMask : String → Mask := fun k =>
  if k = "capabilities" then .any else if k = "resources" then .within resourcesMask else .same

def processMask : String → Mask := fun k =>
  if k = "args" ∨ k = "env" then .any else if k = "capabilities" then .sets else .same

/-- What packages may make different. -/
def packageMask : String → Mask := fun k =>
  if k = "process" then .within processMask else if k = "linux" then .within linuxMask else .same

theorem after?_memoryMask {path : List String} (limit : Apart path ["limit"]) :
    (Mask.within memoryMask).after? path = some .same := by
  cases path with
  | nil => simp at limit
  | cons k ks =>
      have plain : k ≠ "limit" := by simpa using limit
      simp [memoryMask, plain]

theorem after?_resourcesMask {path : List String} (limit : Apart path ["memory", "limit"]) :
    (Mask.within resourcesMask).after? path = some .same := by
  cases path with
  | nil => simp at limit
  | cons k ks =>
      by_cases memory : k = "memory"
      · simpa [resourcesMask, memory] using after?_memoryMask (by simpa [memory] using limit)
      · simp [resourcesMask, memory]

theorem after?_linuxMask {path : List String} (capabilities : Apart path ["capabilities"])
    (limit : Apart path ["resources", "memory", "limit"]) :
    (Mask.within linuxMask).after? path = some .same := by
  cases path with
  | nil => simp at limit
  | cons k ks =>
      have plain : k ≠ "capabilities" := by simpa using capabilities
      by_cases resources : k = "resources"
      · simpa [linuxMask, resources] using after?_resourcesMask (by simpa [resources] using limit)
      · simp [linuxMask, plain, resources]

theorem after?_processMask {path : List String} (args : Apart path ["args"]) (env : Apart path ["env"])
    (sets : Apart path ["capabilities"]) : (Mask.within processMask).after? path = some .same := by
  cases path with
  | nil => simp at args
  | cons k ks =>
      have notArgs : k ≠ "args" := by simpa using args
      have notEnv : k ≠ "env" := by simpa using env
      have notSets : k ≠ "capabilities" := by simpa using sets
      simp [processMask, notArgs, notEnv, notSets]

/-- Apart from the places of packages the mask demands the same value. -/
theorem after?_packageMask {path : List String} (apart : ∀ place ∈ packagePlaces, Apart path place) :
    (Mask.within packageMask).after? path = some .same := by
  simp only [packagePlaces, List.forall_mem_cons, List.not_mem_nil, false_implies, implies_true,
    and_true] at apart
  obtain ⟨args, env, sets, capabilities, limit⟩ := apart
  cases path with
  | nil => simp at args
  | cons k ks =>
      by_cases process : k = "process"
      · subst process
        exact after?_processMask (by simpa using args) (by simpa using env) (by simpa using sets)
      · by_cases linux : k = "linux"
        · subst linux
          exact after?_linuxMask (by simpa using capabilities) (by simpa using limit)
        · simp [packageMask, process, linux]

/-- Steps by which packages contribute. -/
def Step.isContribution : Step → Bool
  | pushArg _ | pushEnvEntry _ | addCapability _ | setMemoryLimit _ => true
  | _ => false

/-- Steps by which the generator settles the rest. -/
def Step.isSettling : Step → Bool
  | pushEnv .. | addUidMapping _ | addGidMapping _ | addMount _ | addHook .. | setUser _ | setCwd _ |
    setHostname _ => true
  | _ => false

/-- A capability more in the sets is nothing that the mask sees. -/
theorem alike_pushIntoSets (name : String) {ms ns : List (String × Json)} (h : Alike packageMask ms ns) :
    Alike packageMask (pushIntoSets name ms) ns := by
  unfold pushIntoSets
  split
  case h_2 => exact h
  case h_1 process found =>
  split
  case h_2 => exact h
  case h_1 sets inProcess =>
  have pushed (k : String) : Members.get? k (sets.map fun m => (m.1, pushUniqueInto name m.2)) =
      (Members.get? k sets).map (pushUniqueInto name) := Members.get?_map _ k sets
  -- The sets with the capability are like any sets that were like them before.
  have alikeSets {y : Option Json} (before : Mask.sets.Rel (some (.obj sets)) y) :
      Mask.sets.Rel (some (.obj (sets.map fun m => (m.1, pushUniqueInto name m.2)))) y := by
    have like (j : Json) :
        pushUniqueInto name j = j ∨ ∃ l m, pushUniqueInto name j = .arr l ∧ j = .arr m := by
      cases j with
      | arr l => exact .inr ⟨_, l, rfl, rfl⟩
      | _ => exact .inl rfl
    rcases before with rfl | ⟨_, ns, left, right, members⟩
    · refine .inr ⟨_, sets, rfl, rfl, fun k => ?_⟩
      rw [pushed]
      cases Members.get? k sets with
      | none => exact .inl rfl
      | some j =>
          rcases like j with equal | ⟨l, m, list, was⟩
          · exact .inl (by rw [Option.map_some, equal])
          · exact .inr ⟨l, m, by rw [Option.map_some, list], by rw [was]⟩
    · cases left
      refine .inr ⟨_, ns, rfl, right, fun k => ?_⟩
      rw [pushed]
      rcases members k with equal | ⟨l, m, inLeft, inRight⟩
      · rw [equal]
        cases Members.get? k ns with
        | none => exact .inl rfl
        | some j =>
            rcases like j with equal | ⟨l, m, list, was⟩
            · exact .inl (by rw [Option.map_some, equal])
            · exact .inr ⟨l, m, by rw [Option.map_some, list], by rw [was]⟩
      · exact .inr ⟨_, m, by rw [inLeft]; rfl, inRight⟩
  refine h.set_left ?_
  have here := h "process"
  rw [found] at here
  rcases here with equal | ⟨_, ns', left, right, members⟩
  · refine .inr ⟨_, process, rfl, by rw [← equal]; rfl, ?_⟩
    exact (Alike.refl processMask process).set_left (alikeSets (by rw [inProcess]; exact .refl _ _))
  · cases left
    have members : Alike processMask process ns' := members
    have inSets := members "capabilities"
    rw [inProcess] at inSets
    exact .inr ⟨_, ns', rfl, right, members.set_left (alikeSets inSets)⟩

theorem alike_of_contribution (h : Alike packageMask s.members t.members) (kind : step.isContribution = true)
    (ok : step.apply s = (.ok (), s')) : Alike packageMask s'.members t.members := by
  cases step with
  | pushArg | pushEnvEntry | setMemoryLimit => exact h.left (Step.updates ok rfl) rfl
  | addCapability name =>
      obtain ⟨ms, run, members⟩ := addCapability_eq_ok ok
      rw [members]
      exact alike_pushIntoSets name (h.left run rfl)
  | _ => cases kind

theorem alike_of_settling (h : Alike packageMask s.members t.members) (kind : step.isSettling = true)
    (ok : step.apply s = (.ok (), s')) (ok' : step.apply t = (.ok (), t')) :
    Alike packageMask s'.members t'.members := by
  cases step with
  | pushEnv => exact h.both (Step.updates ok rfl) (Step.updates ok' rfl) (.inr rfl)
  | addUidMapping | addGidMapping | addMount | addHook | setUser | setCwd | setHostname =>
      exact h.both (Step.updates ok rfl) (Step.updates ok' rfl) (.inl rfl)
  | _ => cases kind

theorem alike_of_contributions (h : Alike packageMask s.members t.members)
    (kind : ∀ step ∈ steps, step.isContribution = true) (ok : s.run steps = (.ok (), s')) :
    Alike packageMask s'.members t.members := by
  induction steps generalizing s with
  | nil => cases ok; exact h
  | cons step steps ih =>
      obtain ⟨s₁, first, rest⟩ := run_cons_eq_ok ok
      have h₁ := alike_of_contribution h (kind step List.mem_cons_self) first
      exact ih h₁ (fun step mem => kind step (List.mem_cons_of_mem _ mem)) rest

theorem alike_of_settlings (h : Alike packageMask s.members t.members)
    (kind : ∀ step ∈ steps, step.isSettling = true) (ok : s.run steps = (.ok (), s'))
    (ok' : t.run steps = (.ok (), t')) : Alike packageMask s'.members t'.members := by
  induction steps generalizing s t with
  | nil => cases ok; cases ok'; exact h
  | cons step steps ih =>
      obtain ⟨s₁, first, rest⟩ := run_cons_eq_ok ok
      obtain ⟨t₁, first', rest'⟩ := run_cons_eq_ok ok'
      have h₁ := alike_of_settling h (kind step List.mem_cons_self) first first'
      exact ih h₁ (fun step mem => kind step (List.mem_cons_of_mem _ mem)) rest rest'

/-! ### What the generator settles -/

section

variable {c : Config} {accounts : Accounts} {a : Application}

theorem settle_eq_ok (ok : s.settle c accounts a = .ok s') :
    ∃ s₁ name dir, s.run (identitySteps c a (videoGid c accounts)) = (.ok (), s₁) ∧
      socketParts a.displaySocket = .ok (name, dir) ∧
      s₁.run (displaySteps a name dir ++ storageSteps c a ++ ipcSteps c a) = (.ok (), s') := by
  unfold settle at ok
  cases identity : s.runAll (identitySteps c a (videoGid c accounts)) with
  | error e => rw [identity] at ok; cases ok
  | ok s₁ =>
      rw [identity] at ok
      cases parts : socketParts a.displaySocket with
      | error e => rw [parts] at ok; cases ok
      | ok part =>
          rw [parts] at ok
          exact ⟨s₁, part.1, part.2, runAll_eq_ok_iff.mp identity, rfl, runAll_eq_ok_iff.mp ok⟩

theorem alike_of_settle (h : Alike packageMask s.members t.members) (ok : s.settle c accounts a = .ok s')
    (ok' : t.settle c accounts a = .ok t') : Alike packageMask s'.members t'.members := by
  obtain ⟨s₁, name, dir, identity, parts, rest⟩ := settle_eq_ok ok
  obtain ⟨t₁, _, _, identity', parts', rest'⟩ := settle_eq_ok ok'
  cases parts.symm.trans parts'
  have h₁ := alike_of_settlings h (by simp [identitySteps, Step.isSettling]) identity identity'
  exact alike_of_settlings h₁
    (by simp [displaySteps, storageSteps, ipcSteps, bindSame, Step.isSettling]) rest rest'

/-- The entries that the generator has of its own, by their names. -/
def ownEntries (c : Config) (a : Application) (name : String) (dir : Path) : List (String × String) :=
  [("WAYLAND_DISPLAY", name), ("XDG_RUNTIME_DIR", dir.display), ("HOME", c.storageContainerPath),
    ("APPCELL_STORAGE_PATH", c.storageContainerPath),
    ("APPCELL_IPC_SOCKET", (c.ipcSocketPath a.instanceId).display)]

theorem separator_not_mem_ownEntries {name : String} {dir : Path} :
    ∀ entry ∈ ownEntries c a name dir, '=' ∉ entry.1.toList := by
  have names : ∀ n ∈ (ownEntries c a name dir).map (·.1), '=' ∉ n.toList := by
    change ∀ n ∈ ["WAYLAND_DISPLAY", "XDG_RUNTIME_DIR", "HOME", "APPCELL_STORAGE_PATH",
      "APPCELL_IPC_SOCKET"], '=' ∉ n.toList
    decide
  exact fun entry mem => names _ (List.mem_map_of_mem mem)

/-- The generator's own entries end the environment. -/
theorem environment_of_settle (ok : s.settle c accounts a = .ok s') :
    ∃ name dir, socketParts a.displaySocket = .ok (name, dir) ∧
      s'.value? ["process", "env"] = some (.arr s'.environment) ∧
      ∀ entry ∈ ownEntries c a name dir,
        lastNamed? entry.1 s'.environment = some (.str (entry.1 ++ "=" ++ entry.2)) := by
  obtain ⟨s₁, name, dir, identity, parts, rest⟩ := settle_eq_ok ok
  have entries : (displaySteps a name dir ++ storageSteps c a ++ ipcSteps c a).flatMap Step.entries =
      (ownEntries c a name dir).map fun entry => entry.1 ++ "=" ++ entry.2 := rfl
  refine ⟨name, dir, parts, value?_env_of_run rest ?_, ?_⟩
  · rw [entries]
    exact List.cons_ne_nil _ _
  · have own (entry e : String × String) (mem : e ∈ ownEntries c a name dir) :
        decide (entryName (e.1 ++ "=" ++ e.2) = entry.1) = decide (e.1 = entry.1) := by
      rw [entryName_of_not_mem e.2 (separator_not_mem_ownEntries e mem)]
    intro entry mem
    rw [environment_of_run rest, entries]
    refine lastNamed?_append ?_
    have mine : (ownEntries c a name dir).filter
        ((fun e => entryName e = entry.1) ∘ fun e : String × String => e.1 ++ "=" ++ e.2) =
          (ownEntries c a name dir).filter (·.1 = entry.1) := List.filter_congr (own entry)
    rw [List.filter_map, mine, List.getLast?_map]
    simp only [ownEntries, List.mem_cons, List.not_mem_nil, or_false] at mem
    rcases mem with rfl | rfl | rfl | rfl | rfl <;> simp [ownEntries]

/-- The process and the instance are described by objects. -/
theorem objects_of_settle (ok : s.settle c accounts a = .ok s') :
    ∀ name ∈ ["process", "linux"], ∃ ms, s'.value? [name] = some (.obj ms) := by
  obtain ⟨_, _, _, list, _⟩ := environment_of_settle ok
  obtain ⟨s₁, name, dir, identity, -, rest⟩ := settle_eq_ok ok
  obtain ⟨_, mapped⟩ : ∃ v, s₁.value? ["linux", "gidMappings"] = some v := by
    have split : identitySteps c a (videoGid c accounts) =
        [.setUser ⟨0, 0, [videoGid c accounts]⟩, .setHostname a.appId, .setCwd c.workingDir,
          .addUidMapping (.single 0 a.uid)] ++ [.addGidMapping (.single 0 a.gid)] := rfl
    rw [split] at identity
    obtain ⟨s₂, -, last⟩ := run_append identity
    obtain ⟨s₃, added, none⟩ := run_cons_eq_ok last
    cases none
    obtain ⟨v, -, written⟩ := (Step.updates added rfl).value?
    exact ⟨v, written⟩
  have kept : s'.value? ["linux", "gidMappings"] = s₁.value? ["linux", "gidMappings"] := by
    refine value?_of_run rest ?_
    simp [displaySteps, storageSteps, ipcSteps, bindSame, Step.write?]
  simp only [List.forall_mem_cons, List.not_mem_nil, false_implies, implies_true, and_true]
  exact ⟨Json.object_of_value? list, Json.object_of_value? (kept.trans mapped)⟩

end

end Spec

namespace Generator

open Spec

variable {g : Generator} {h : Host} {a : Application}

theorem guardConfig_eq_ok {α : Type} {stage : Stage} {x : Except ConfigError α} {b : α}
    (ok : stage.guardConfig x = .ok b) : x = .ok b := by
  cases x with
  | error e => cases ok
  | ok a => cases ok; rfl

theorem guard_eq_ok {α : Type} {stage : Stage} {x : Except Error α} {b : α}
    (ok : stage.guard x = .ok b) : x = .ok b := by
  cases x with
  | error e => cases ok
  | ok a => cases ok; rfl

/-- What packages contribute comes behind the template and the graphics, and before all
that the generator settles. -/
theorem assemble_eq_ok {template s : Spec} {grant : Graphics.Grant} {ms : List Package.Metadata}
    (ok : g.assemble a template grant ms = .ok s) :
    ∃ s₁ s₂, (grant.apply template).2.run (Package.contributionSteps ms) = (.ok (), s₁) ∧
      s₁.run (hookSteps g.config (g.config.specPath a.instanceId)) = (.ok (), s₂) ∧
      s₂.settle g.config g.accounts a = .ok s := by
  obtain ⟨s₁, packages, ok⟩ := bind_eq_ok ok
  obtain ⟨s₂, hooks, ok⟩ := bind_eq_ok ok
  exact ⟨s₁, s₂, runAll_eq_ok_iff.mp (guardConfig_eq_ok packages),
    runAll_eq_ok_iff.mp (guardConfig_eq_ok hooks), guardConfig_eq_ok ok⟩

theorem build_eq_ok {packages : List Package} {s : Spec} (ok : g.build h a packages = .ok s) :
    ∃ template graphics, g.template h = .ok template ∧
      Graphics.load h g.config.graphicsDescriptor = .ok graphics ∧
      g.assemble a template (graphics.grant h g.accounts) (Package.readable h packages) = .ok s := by
  obtain ⟨template, base, ok⟩ := bind_eq_ok ok
  obtain ⟨graphics, descriptor, ok⟩ := bind_eq_ok ok
  exact ⟨template, graphics, guard_eq_ok base, guard_eq_ok descriptor, ok⟩

theorem isContribution_of_mem {ms : List Package.Metadata} :
    ∀ step ∈ Package.contributionSteps ms, step.isContribution = true := by
  intro step mem
  simp only [Package.contributionSteps, Package.Metadata.steps, List.mem_append, List.mem_flatMap,
    List.mem_map] at mem
  rcases mem with ⟨m, -, ((⟨_, _, rfl⟩ | ⟨_, _, rfl⟩) | ⟨_, _, rfl⟩) | ⟨_, _, rfl⟩⟩ | ⟨_, _, rfl⟩ <;> rfl

/-- Whatever the metadata of packages, the specifications put together with them are
alike. -/
theorem alike_of_assemble {template s t : Spec} {grant : Graphics.Grant} {ms ns : List Package.Metadata}
    (ok : g.assemble a template grant ms = .ok s) (ok' : g.assemble a template grant ns = .ok t) :
    Alike packageMask s.members t.members := by
  obtain ⟨s₁, s₂, packages, hooks, settled⟩ := assemble_eq_ok ok
  obtain ⟨t₁, t₂, packages', hooks', settled'⟩ := assemble_eq_ok ok'
  have start := Alike.refl packageMask (grant.apply template).2.members
  have left := alike_of_contributions start isContribution_of_mem packages
  have both := (alike_of_contributions left.symm isContribution_of_mem packages').symm
  have hooked := alike_of_settlings both (by simp [hookSteps, Step.isSettling]) hooks hooks'
  exact alike_of_settle hooked settled settled'

/-- A missing section, an empty value or an object. -/
def IsSection (x : Option Json) : Prop :=
  x = none ∨ x = some .null ∨ ∃ ms, x = some (.obj ms)

theorem isSection_of_members? {x : Option Json} {ms : List (String × Json)}
    (found : Section.members? x = some ms) : IsSection x := by
  unfold Section.members? at found
  split at found
  · exact .inl rfl
  · exact .inr (.inl rfl)
  · exact .inr (.inr ⟨_, rfl⟩)
  · cases found

/-- Packages have no say in what an instance is. Two specifications that are built
with different packages have the same value at every place that packages do not write
to. What is above such a place differs in nothing else. The last entries for the names
of the generator are its own. -/
theorem packages_confined (g : Generator) (h : Host) (a : Application) (packages packages' : List Package)
    (s t : Spec) (ok : g.build h a packages = .ok s) (ok' : g.build h a packages' = .ok t) :
    (∀ path, (∀ place ∈ packagePlaces, Apart path place) → s.value? path = t.value? path) ∧
    (∀ name ∈ ["process", "linux"], ∃ ms ns, s.value? [name] = some (.obj ms) ∧
      t.value? [name] = some (.obj ns)) ∧
    (∀ path ∈ [["linux", "resources"], ["linux", "resources", "memory"]],
      s.value? path = t.value? path ∨ IsSection (s.value? path) ∧ IsSection (t.value? path)) ∧
    (s.value? ["process", "capabilities"] = t.value? ["process", "capabilities"] ∨
      ∃ ms ns, s.value? ["process", "capabilities"] = some (.obj ms) ∧
        t.value? ["process", "capabilities"] = some (.obj ns) ∧
        ∀ k, Members.get? k ms = Members.get? k ns ∨
          ∃ l m, Members.get? k ms = some (.arr l) ∧ Members.get? k ns = some (.arr m)) ∧
    ∃ name dir, socketParts a.displaySocket = .ok (name, dir) ∧ ∀ u ∈ [s, t],
      ∃ items, u.value? ["process", "env"] = some (.arr items) ∧
        ∀ entry ∈ ownEntries g.config a name dir,
          lastNamed? entry.1 items = some (.str (entry.1 ++ "=" ++ entry.2)) := by
  obtain ⟨template, graphics, base, descriptor, assembled⟩ := build_eq_ok ok
  obtain ⟨_, _, base', descriptor', assembled'⟩ := build_eq_ok ok'
  cases base.symm.trans base'
  cases descriptor.symm.trans descriptor'
  obtain ⟨_, _, _, _, settled⟩ := assemble_eq_ok assembled
  obtain ⟨_, _, _, _, settled'⟩ := assemble_eq_ok assembled'
  have alike := alike_of_assemble assembled assembled'
  have whole : (Mask.within packageMask).Rel (some s.toJson) (some t.toJson) :=
    .inr ⟨s.members, t.members, rfl, rfl, alike⟩
  have rel {path : List String} {m : Mask} (demands : (Mask.within packageMask).after? path = some m) :
      m.Rel (s.value? path) (t.value? path) := whole.bind_value? demands
  refine ⟨fun path apart => rel (after?_packageMask apart), ?_, ?_, ?_, ?_⟩
  · intro name mem
    obtain ⟨ms, inLeft⟩ := objects_of_settle settled name mem
    obtain ⟨ns, inRight⟩ := objects_of_settle settled' name mem
    exact ⟨ms, ns, inLeft, inRight⟩
  · intro path mem
    have sections {f : String → Mask} (r : (Mask.within f).Rel (s.value? path) (t.value? path)) :
        s.value? path = t.value? path ∨ IsSection (s.value? path) ∧ IsSection (t.value? path) :=
      r.imp_right fun ⟨_, _, left, right, _⟩ => ⟨isSection_of_members? left, isSection_of_members? right⟩
    simp only [List.mem_cons, List.not_mem_nil, or_false] at mem
    rcases mem with rfl | rfl
    · exact sections (rel rfl)
    · exact sections (rel rfl)
  · exact rel (m := .sets) rfl
  · obtain ⟨name, dir, parts, list, own⟩ := environment_of_settle settled
    obtain ⟨_, _, parts', list', own'⟩ := environment_of_settle settled'
    cases parts.symm.trans parts'
    refine ⟨name, dir, parts, ?_⟩
    simp only [List.forall_mem_cons, List.not_mem_nil, false_implies, implies_true, and_true]
    exact ⟨⟨_, list, own⟩, ⟨_, list', own'⟩⟩

/-- With and without a package, of which the command of an instance is seen to depend. -/
theorem packages_confined_sample :
    ∃ s t, Sample.generator.build (Sample.host []) (Sample.application Sample.first) [Sample.package] = .ok s ∧
      Sample.generator.build (Sample.host []) (Sample.application Sample.first) [] = .ok t ∧
      s.value? ["process", "args"] ≠ t.value? ["process", "args"] ∧
      ∀ path, (∀ place ∈ packagePlaces, Apart path place) → s.value? path = t.value? path := by
  have succeeds {x : Except StageFailure Spec} (some : x.toOption.isSome = true) : ∃ s, x = .ok s := by
    cases x with
    | error e => cases some
    | ok s => exact ⟨s, rfl⟩
  obtain ⟨s, ok⟩ := succeeds (x := Sample.generator.build (Sample.host []) (Sample.application Sample.first)
    [Sample.package]) (by decide +kernel)
  obtain ⟨t, ok'⟩ := succeeds (x := Sample.generator.build (Sample.host [])
    (Sample.application Sample.first) []) (by decide +kernel)
  have differ : (Sample.generator.build (Sample.host []) (Sample.application Sample.first)
      [Sample.package]).toOption.bind (·.value? ["process", "args"]) ≠
    (Sample.generator.build (Sample.host []) (Sample.application Sample.first) []).toOption.bind
      (·.value? ["process", "args"]) := by decide +kernel
  rw [ok, ok'] at differ
  exact ⟨s, t, ok, ok', differ, (packages_confined _ _ _ _ _ s t ok ok').1⟩

end Generator

end Sandbox
