import Sandbox.Proofs.Generate.Identity
import Sandbox.Proofs.Path.Descend
import Sandbox.Proofs.Spec.Fitting
import Sandbox.Proofs.Text.Pieces

/-!
Which stage fails.

What hinders a stage can be read off the template, the descriptor of graphics, the
packages and the display socket, before anything is built (`Generator.Hindered`): what
the stages before do to the document does not matter. The first stage that is hindered
fails, and nothing else ever does (`Generator.build_fails_iff_hindered`).
-/

namespace Sandbox

/-! ### The display socket -/

namespace Path

/-- A path that ends with a name has something above it. -/
theorem parent?_of_fileName? {p : Path} {n : Name} (named : p.fileName? = some n) : ∃ q, p.parent? = some q := by
  obtain ⟨last, there, name⟩ := Option.bind_eq_some_iff.mp named
  unfold components at there
  unfold parent?
  split at there
  case h_1 => cases there
  case h_2 s ss split =>
  cases trimmed : trimSkipped ss with
  | nil =>
      -- Only the first segment names anything, and it is no root.
      rw [filterMap_of_skipped (skipped_of_trimSkipped trimmed), List.append_nil] at there
      have relative : p.isAbsolute = false := by
        by_contra absolute
        rw [firstComponent?, if_pos (by simpa using absolute)] at there
        cases there
        cases name
      have nonempty : s ≠ [] := by
        rintro rfl
        rw [firstComponent?, if_neg (by simp [relative])] at there
        cases there
      exact ⟨empty, by simp [relative, nonempty]⟩
  | cons t ts =>
      dsimp only
      split
      · split <;> exact ⟨_, rfl⟩
      · exact ⟨_, rfl⟩

end Path

namespace Spec

variable {p : Path}

/-- A path leads to a display socket: it begins at the root and ends with a name that is
a text. -/
structure IsSocket (p : Path) : Prop where
  absolute : p.isAbsolute = true
  named : ∃ n, p.fileName? = some n ∧ (Utf8.decode? n).isSome

/-- The parts of a path are the text of its last name and what is above it. -/
theorem socketParts_eq_ok {name : String} {dir : Path} (ok : socketParts p = .ok (name, dir)) :
    p.isAbsolute = true ∧ p.fileName? = some (Utf8.encode name.toList) ∧ p.parent? = some dir := by
  unfold socketParts at ok
  split at ok
  case isTrue => cases ok
  case isFalse absolute =>
  split at ok
  case h_2 => cases ok
  case h_1 text parent =>
  cases ok
  obtain ⟨n, named, read⟩ := Option.bind_eq_some_iff.mp text
  obtain ⟨t, decoded, rfl⟩ := Option.map_eq_some_iff.mp read
  rw [String.toList_ofList, ← Utf8.decode?_eq_some_iff.mp decoded]
  exact ⟨by simpa using absolute, named, parent⟩

theorem socketParts_eq_ok_iff : (∃ parts, socketParts p = .ok parts) ↔ IsSocket p := by
  constructor
  · rintro ⟨parts, ok⟩
    obtain ⟨absolute, named, -⟩ := socketParts_eq_ok ok
    exact ⟨absolute, _, named, by rw [Utf8.decode?_encode]; rfl⟩
  · rintro ⟨absolute, n, named, text⟩
    obtain ⟨cs, decoded⟩ := Option.isSome_iff_exists.mp text
    obtain ⟨dir, parent⟩ := Path.parent?_of_fileName? named
    exact ⟨(.ofList cs, dir), by simp [socketParts, absolute, named, Path.text?, decoded, parent]⟩

theorem runAll_ok_iff {s : Spec} {steps : List Step} :
    (∃ t, s.runAll steps = .ok t) ↔ ∀ step ∈ steps, step.Fits s := by
  rw [← run_eq_ok_iff]
  constructor
  · rintro ⟨t, ok⟩
    rw [runAll_eq_ok_iff.mp ok]
  · intro ok
    exact ⟨(s.run steps).2, runAll_eq_ok_iff.mpr (Prod.ext ok rfl)⟩

theorem grows_of_runAll {s t : Spec} {steps : List Step} (ok : s.runAll steps = .ok t) : Grows s t := by
  have grown := grows_run s steps
  rwa [runAll_eq_ok_iff.mp ok] at grown

/-- The lists that the generator itself appends to. -/
def settledLists : List (List String) :=
  [["linux", "uidMappings"], ["linux", "gidMappings"], ["process", "env"], ["mounts"]]

/-- What the generator settles for itself has a place in a specification, and the display
socket can be found. -/
structure TakesSettling (s : Spec) (socket : Path) : Prop where
  process : s.TakesMembers ["process"]
  lists : ∀ path ∈ settledLists, s.TakesItems path
  socket : IsSocket socket

theorem Grows.takesSettling_iff {s t : Spec} (h : Grows s t) : t.TakesSettling p ↔ s.TakesSettling p := by
  have process : t.TakesMembers ["process"] ↔ s.TakesMembers ["process"] :=
    h.takesMembers_iff (by simp [growth])
  have list : ∀ path ∈ settledLists, (t.TakesItems path ↔ s.TakesItems path) := by
    intro path mem
    simp only [settledLists, List.mem_cons, List.not_mem_nil, or_false] at mem
    rcases mem with rfl | rfl | rfl | rfl <;> exact h.takesItems_iff rfl (by simp [growth])
  constructor
  · rintro ⟨members, lists, socket⟩
    exact ⟨process.mp members, fun path mem => (list path mem).mp (lists path mem), socket⟩
  · rintro ⟨members, lists, socket⟩
    exact ⟨process.mpr members, fun path mem => (list path mem).mpr (lists path mem), socket⟩

theorem settle_ok_iff {s : Spec} {c : Config} {accounts : Accounts} {a : Application} :
    (∃ t, s.settle c accounts a = .ok t) ↔ s.TakesSettling a.displaySocket := by
  have identity (t : Spec) : (∀ step ∈ identitySteps c a (videoGid c accounts), step.Fits t) ↔
      t.TakesMembers ["process"] ∧ t.TakesItems ["linux", "uidMappings"] ∧
        t.TakesItems ["linux", "gidMappings"] := by
    simp [identitySteps, Step.Fits]
  have rest (t : Spec) (name : String) (dir : Path) :
      (∀ step ∈ displaySteps a name dir ++ storageSteps c a ++ ipcSteps c a, step.Fits t) ↔
        t.TakesItems ["process", "env"] ∧ t.TakesItems ["mounts"] := by
    simp only [displaySteps, storageSteps, ipcSteps, bindSame, List.cons_append, List.nil_append,
      List.forall_mem_cons, List.not_mem_nil, false_implies, implies_true, and_true, Step.Fits]
    constructor
    · rintro ⟨env, _, mounts, _⟩
      exact ⟨env, mounts⟩
    · rintro ⟨env, mounts⟩
      exact ⟨env, env, mounts, env, mounts, env, mounts, env⟩
  constructor
  · rintro ⟨t, ok⟩
    obtain ⟨s₁, name, dir, first, parts, last⟩ := settle_eq_ok ok
    obtain ⟨process, uids, gids⟩ := (identity s).mp (runAll_ok_iff.mp ⟨s₁, runAll_eq_ok_iff.mpr first⟩)
    have fits := runAll_ok_iff.mp ⟨t, runAll_eq_ok_iff.mpr last⟩
    have grown := grows_of_runAll (runAll_eq_ok_iff.mpr first)
    obtain ⟨env, mounts⟩ := (rest s name dir).mp fun step mem => (grown.fits_iff step).mp (fits step mem)
    exact ⟨process, by simp [settledLists, uids, gids, env, mounts], socketParts_eq_ok_iff.mp ⟨_, parts⟩⟩
  · rintro ⟨process, lists, socket⟩
    simp only [settledLists, List.forall_mem_cons] at lists
    obtain ⟨uids, gids, env, mounts, -⟩ := lists
    obtain ⟨s₁, first⟩ := runAll_ok_iff.mpr ((identity s).mpr ⟨process, uids, gids⟩)
    obtain ⟨⟨name, dir⟩, parts⟩ := socketParts_eq_ok_iff.mpr socket
    have grown := grows_of_runAll first
    obtain ⟨t, last⟩ := runAll_ok_iff.mpr fun step mem =>
      (grown.fits_iff step).mpr ((rest s name dir).mpr ⟨env, mounts⟩ step mem)
    refine ⟨t, ?_⟩
    rw [settle, first]
    change (socketParts a.displaySocket >>= _) = _
    rw [parts]
    exact last

end Spec

/-! ### What packages ask for -/

namespace Package

namespace Metadata

open Spec

/-- What a package contributes has a place in a specification. -/
structure Fits (s : Spec) (m : Metadata) : Prop where
  entryPoint : (∃ e, m.entryPoint = some e ∧ e ≠ "") → s.TakesItems ["process", "args"]
  permissions : m.permissions ≠ [] → s.TakesItems ["linux", "capabilities"]
  environment : m.configurations ≠ [] ∨ m.envVariables ≠ [] → s.TakesItems ["process", "env"]
  limit : m.limit ≠ 0 → s.TakesMembers ["linux", "resources", "memory"]

/-- Steps of one kind ask for one thing. -/
theorem forall_mem_map_fits_iff {α : Type} {s : Spec} {l : List α} {f : α → Spec.Step} {P : Prop}
    (same : ∀ a, (f a).Fits s ↔ P) : (∀ step ∈ l.map f, step.Fits s) ↔ (l ≠ [] → P) := by
  simp only [List.forall_mem_map, same]
  exact ⟨fun all some => (List.exists_mem_of_ne_nil l some).elim all,
    fun all a mem => all (List.ne_nil_of_mem mem)⟩

theorem fits_iff {s : Spec} {m : Metadata} :
    m.Fits s ↔
      (∀ step ∈ m.steps, step.Fits s) ∧ (m.limit ≠ 0 → s.TakesMembers ["linux", "resources", "memory"]) := by
  have entry : (m.entryPoint.filter (· ≠ "")).toList ≠ [] ↔ ∃ e, m.entryPoint = some e ∧ e ≠ "" := by
    simp [Option.filter_eq_none_iff]
  have steps : (∀ step ∈ m.steps, step.Fits s) ↔
      ((((∃ e, m.entryPoint = some e ∧ e ≠ "") → s.TakesItems ["process", "args"]) ∧
        (m.permissions ≠ [] → s.TakesItems ["linux", "capabilities"])) ∧
        (m.configurations ≠ [] → s.TakesItems ["process", "env"])) ∧
        (m.envVariables ≠ [] → s.TakesItems ["process", "env"]) := by
    rw [Metadata.steps, List.forall_mem_append, List.forall_mem_append, List.forall_mem_append, ← entry]
    exact and_congr (and_congr (and_congr (forall_mem_map_fits_iff fun _ => Iff.rfl)
      (forall_mem_map_fits_iff fun _ => Iff.rfl)) (forall_mem_map_fits_iff fun _ => Iff.rfl))
      (forall_mem_map_fits_iff fun _ => Iff.rfl)
  rw [steps]
  constructor
  · rintro ⟨entryPoint, permissions, environment, limit⟩
    exact ⟨⟨⟨⟨entryPoint, permissions⟩, fun some => environment (.inl some)⟩,
      fun some => environment (.inr some)⟩, limit⟩
  · rintro ⟨⟨⟨⟨entryPoint, permissions⟩, configurations⟩, envVariables⟩, limit⟩
    exact ⟨entryPoint, permissions, Or.rec configurations envVariables, limit⟩

theorem isSome_resolve_recordLimit (t : OverrideTable UInt64) (m : Metadata) :
    (recordLimit t m).resolve.isSome ↔ t.resolve.isSome ∨ m.limit ≠ 0 := by
  unfold recordLimit
  split
  · next zero => simp [zero]
  · next some => cases m.packageType <;> simp [OverrideTable.record, OverrideTable.resolve, some]

end Metadata

open Metadata

/-- Packages have a limit as soon as one of them has. -/
theorem isSome_limit?_iff {ms : List Metadata} : (limit? ms).isSome ↔ ∃ m ∈ ms, m.limit ≠ 0 := by
  suffices ∀ t : OverrideTable UInt64,
      (ms.foldl recordLimit t).resolve.isSome ↔ t.resolve.isSome ∨ ∃ m ∈ ms, m.limit ≠ 0 by
    have nothing : (OverrideTable.empty : OverrideTable UInt64).resolve = none := rfl
    simpa [limit?, nothing] using this .empty
  induction ms with
  | nil => simp
  | cons m ms ih =>
      intro t
      rw [List.foldl_cons, ih, isSome_resolve_recordLimit, List.exists_mem_cons_iff, or_assoc]

/-- What packages contribute fits exactly when it does package by package. -/
theorem fits_contributionSteps_iff {s : Spec} {ms : List Metadata} :
    (∀ step ∈ contributionSteps ms, step.Fits s) ↔ ∀ m ∈ ms, m.Fits s := by
  have limit : (∀ step ∈ (limit? ms).toList.map Spec.Step.setMemoryLimit, step.Fits s) ↔
      ∀ m ∈ ms, m.limit ≠ 0 → s.TakesMembers ["linux", "resources", "memory"] := by
    have some : (limit? ms).toList ≠ [] ↔ ∃ m ∈ ms, m.limit ≠ 0 := by
      rw [← isSome_limit?_iff, Option.isSome_iff_ne_none, ne_eq, Option.toList_eq_nil_iff]
    have steps : (∀ step ∈ (limit? ms).toList.map Spec.Step.setMemoryLimit, step.Fits s) ↔
        ((limit? ms).toList ≠ [] → s.TakesMembers ["linux", "resources", "memory"]) :=
      forall_mem_map_fits_iff fun _ => Iff.rfl
    rw [steps, some]
    exact ⟨fun all m mem limit => all ⟨m, mem, limit⟩, fun all ⟨m, mem, limit⟩ => all m mem limit⟩
  rw [contributionSteps, List.forall_mem_append, limit, List.forall_mem_flatMap]
  simp only [fits_iff, forall_and]

end Package

/-! ### The first stage that is hindered -/

/-- The first of some stages that is hindered. -/
inductive FirstHindered (hindered : Stage → Prop) : List Stage → Stage → Prop where
  | here {stage : Stage} {later : List Stage} : hindered stage →
      FirstHindered hindered (stage :: later) stage
  | later {passed stage : Stage} {stages : List Stage} : ¬ hindered passed →
      FirstHindered hindered stages stage → FirstHindered hindered (passed :: stages) stage

theorem FirstHindered.mem {hindered : Stage → Prop} {stages : List Stage} {stage : Stage}
    (first : FirstHindered hindered stages stage) : stage ∈ stages := by
  induction first with
  | here => exact List.mem_cons_self
  | later _ _ ih => exact List.mem_cons_of_mem _ ih

/-- A result that comes from passing stages until one is hindered. -/
inductive PassesThrough {α : Type} (hindered : Stage → Prop) (x : Except StageFailure α) : List Stage → Prop where
  | done {a : α} : x = .ok a → PassesThrough hindered x []
  | fails {stage : Stage} {cause : Error} {later : List Stage} : hindered stage →
      x = .error ⟨stage, cause⟩ → PassesThrough hindered x (stage :: later)
  | passes {stage : Stage} {later : List Stage} : ¬ hindered stage →
      PassesThrough hindered x later → PassesThrough hindered x (stage :: later)

namespace PassesThrough

variable {α β ε : Type} {hindered : Stage → Prop} {x : Except StageFailure α} {y : Except ε β}
  {f : β → Except StageFailure α} {stage : Stage} {stages later : List Stage}

/-- A stage that fails exactly when it is hindered, and those behind it. -/
theorem bind (wrap : ε → Error) (hinders : hindered stage ↔ ¬ ∃ b, y = .ok b)
    (rest : ∀ b, y = .ok b → PassesThrough hindered (f b) later) :
    PassesThrough hindered (y.mapError (fun e => ⟨stage, wrap e⟩) >>= f) (stage :: later) := by
  cases y with
  | error e => exact .fails (hinders.mpr (by simp)) rfl
  | ok b => exact .passes (fun bad => hinders.mp bad ⟨b, rfl⟩) (rest b rfl)

/-- A last stage that fails exactly when it is hindered. -/
theorem last (wrap : ε → Error) {y : Except ε α} (hinders : hindered stage ↔ ¬ ∃ a, y = .ok a) :
    PassesThrough hindered (y.mapError fun e => ⟨stage, wrap e⟩) [stage] := by
  cases y with
  | error e => exact .fails (hinders.mpr (by simp)) rfl
  | ok a => exact .passes (fun bad => hinders.mp bad ⟨a, rfl⟩) (.done rfl)

theorem ok_iff (h : PassesThrough hindered x stages) :
    (∃ a, x = .ok a) ↔ ∀ stage ∈ stages, ¬ hindered stage := by
  induction h with
  | done ok => simp [ok]
  | fails bad failed => simp [bad, failed]
  | passes good _ ih => simp [good, ih]

theorem error_iff (h : PassesThrough hindered x stages) (stage : Stage) :
    (∃ cause, x = .error ⟨stage, cause⟩) ↔ FirstHindered hindered stages stage := by
  induction h with
  | done ok =>
      subst ok
      constructor
      · rintro ⟨_, failed⟩
        cases failed
      · intro first
        cases first
  | fails bad failed =>
      subst failed
      constructor
      · rintro ⟨_, same⟩
        cases same
        exact .here bad
      · intro first
        cases first with
        | here => exact ⟨_, rfl⟩
        | later good => exact absurd bad good
  | passes good _ ih =>
      rw [ih]
      refine ⟨.later good, fun first => ?_⟩
      cases first with
      | here bad => exact absurd bad good
      | later _ first => exact first

end PassesThrough

namespace Generator

open Spec

variable {g : Generator} {h : Host} {a : Application} {packages : List Package}

/-- What hinders a stage of building. -/
def Hindered (g : Generator) (h : Host) (a : Application) (packages : List Package) : Stage → Prop
  | .baseTemplate => ¬ ∃ ms, h.loadDocument g.config.baseTemplate = .ok (.obj ms)
  | .graphicsDescriptor => ¬ ∃ graphics, Graphics.load h g.config.graphicsDescriptor = .ok graphics
  | .package => ∃ ms, h.loadDocument g.config.baseTemplate = .ok (.obj ms) ∧
      ∃ m ∈ Package.readable h packages, ¬ m.Fits ⟨ms⟩
  | .hooks => ∃ ms, h.loadDocument g.config.baseTemplate = .ok (.obj ms) ∧
      ∃ stage ∈ hookStages, ¬ TakesItems ⟨ms⟩ ["hooks", stage]
  | .overrides => ∃ ms, h.loadDocument g.config.baseTemplate = .ok (.obj ms) ∧
      ¬ TakesSettling ⟨ms⟩ a.displaySocket
  | .manifest | .persist | .overlay => False

/-- The stages of building, in order. -/
def buildStages : List Stage :=
  [.baseTemplate, .graphicsDescriptor, .package, .hooks, .overrides]

theorem template_eq_ok_iff {t : Spec} :
    g.template h = .ok t ↔ h.loadDocument g.config.baseTemplate = .ok (.obj t.members) := by
  unfold template
  cases h.loadDocument g.config.baseTemplate with
  | error e => simp
  | ok j =>
      cases j with
      | obj ms =>
          constructor
          · intro ok
            cases ok
            rfl
          · intro ok
            cases ok
            rfl
      | null | bool | num | str | arr =>
          constructor
          · intro ok
            cases ok
          · intro ok
            cases ok

theorem grows_grant (grant : Graphics.Grant) (t : Spec) : Grows t (grant.apply t).2 :=
  grows_andThen (.refl t) fun u _ => grows_run u grant.steps

/-- The stages behind the descriptor are judged by the template, whatever was built on
it before. -/
theorem assemble_passesThrough {t : Spec} (loaded : h.loadDocument g.config.baseTemplate = .ok (.obj t.members))
    (grant : Graphics.Grant) :
    PassesThrough (g.Hindered h a packages) (g.assemble a t grant (Package.readable h packages))
      [.package, .hooks, .overrides] := by
  have template {P : List (String × Json) → Prop} :
      (∃ ms, h.loadDocument g.config.baseTemplate = .ok (.obj ms) ∧ P ms) ↔ P t.members := by
    rw [loaded]
    constructor
    · rintro ⟨_, same, p⟩
      cases same
      exact p
    · intro p
      exact ⟨_, rfl, p⟩
  have granted := grows_grant grant t
  unfold assemble
  generalize grant.apply t = applied at granted ⊢
  obtain ⟨_, s₀⟩ := applied
  refine .bind .config ?_ fun s₁ merged => .bind .config ?_ fun s₂ hooked => .last .config ?_
  · rw [Hindered, template, runAll_ok_iff]
    simp only [granted.fits_iff, Package.fits_contributionSteps_iff, not_forall, exists_prop]
  · have grown := granted.trans (grows_of_runAll merged)
    rw [Hindered, template, runAll_ok_iff]
    simp only [grown.fits_iff]
    simp only [hookSteps, List.forall_mem_map, Step.Fits, not_forall, exists_prop]
  · have grown := (granted.trans (grows_of_runAll merged)).trans (grows_of_runAll hooked)
    rw [Hindered, template, settle_ok_iff, Grows.takesSettling_iff grown]

theorem build_passesThrough (g : Generator) (h : Host) (a : Application) (packages : List Package) :
    PassesThrough (g.Hindered h a packages) (g.build h a packages) buildStages := by
  refine .bind id ?_ fun t loaded => .bind id Iff.rfl fun graphics _ => ?_
  · refine not_congr ?_
    constructor
    · rintro ⟨ms, loaded⟩
      exact ⟨⟨ms⟩, template_eq_ok_iff.mpr loaded⟩
    · rintro ⟨t, loaded⟩
      exact ⟨t.members, template_eq_ok_iff.mp loaded⟩
  · exact assemble_passesThrough (template_eq_ok_iff.mp loaded) _

/-- Building succeeds exactly when no stage is hindered, and otherwise fails at the first
stage that is. All that hinders a stage is in the inputs. -/
theorem build_fails_iff_hindered (g : Generator) (h : Host) (a : Application) (packages : List Package) :
    ((∃ s, g.build h a packages = .ok s) ↔
      ∀ stage ∈ buildStages, ¬ g.Hindered h a packages stage) ∧
    ∀ stage, (∃ cause, g.build h a packages = .error ⟨stage, cause⟩) ↔
      FirstHindered (g.Hindered h a packages) buildStages stage := by
  have passes := build_passesThrough g h a packages
  exact ⟨passes.ok_iff, passes.error_iff⟩

/-- A name that is no text is no name for a display socket. With such a socket nothing
else is in the way, and yet building fails. -/
theorem build_fails_at_unreadable_socket :
    let socket : Path := ⟨Utf8.encode "/run/".toList ++ [0xFF]⟩
    let g := Sample.generator
    let h := Sample.host []
    let a := { Sample.application Sample.first with displaySocket := socket }
    socket.isAbsolute = true ∧ socket.fileName? = some [0xFF] ∧
      (∀ stage ∈ [.baseTemplate, .graphicsDescriptor, .package, .hooks], ¬ g.Hindered h a [] stage) ∧
      (∃ ms, h.loadDocument g.config.baseTemplate = .ok (.obj ms) ∧ TakesMembers ⟨ms⟩ ["process"] ∧
        ∀ path ∈ settledLists, TakesItems ⟨ms⟩ path) ∧
      ∃ cause, g.build h a [] = .error ⟨.overrides, cause⟩ := by
  intro socket g h a
  have loaded : h.loadDocument g.config.baseTemplate = .ok (.obj []) := by decide +kernel
  have failed : g.build h a [] = .error ⟨.overrides, .config (.namelessSocket socket)⟩ := by decide +kernel
  have empty : TakesMembers ⟨[]⟩ ["process"] ∧ ∀ path ∈ settledLists, TakesItems ⟨[]⟩ path := by decide
  refine ⟨by decide, by decide, ?_, ⟨[], loaded, empty⟩, _, failed⟩
  obtain _ | ⟨base, _ | ⟨descriptor, _ | ⟨package, _ | ⟨hooks, _⟩⟩⟩⟩ :=
    ((build_passesThrough g h a []).error_iff .overrides).mp ⟨_, failed⟩
  simp [base, descriptor, package, hooks]

end Generator

end Sandbox
