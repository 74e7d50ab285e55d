import Sandbox.Proofs.Spec.Growth

/-!
What steps add to lists.

Eight kinds of lists are written to by appending and in no other way (`Spec.ListPlace`).
For each of them a step says what it adds (`Spec.Step.gives`). A run of steps adds what
its steps give, in order and nothing else (`Spec.gains_of_run`), so nothing is lost,
repeated or moved. Where nothing is given the value is not touched, and where something
is, a list that is missing counts as an empty one (`Section.Gains`).

Steps that do nothing but append leave the rest of a specification as it is: what they
change besides the lists are the sections on the way to them (`Spec.adds_of_run`).
-/

namespace Sandbox

namespace Section

/-- The second value is the first with items behind it. A list that is null or missing is
read as an empty one. -/
def Appends (more : List Json) (x y : Option Json) : Prop :=
  ∃ l, items? x = some l ∧ y = some (.arr (l ++ more))

/-- The second value is the first with items behind it, or the very same where there are
none. -/
def Gains (more : List Json) (x y : Option Json) : Prop :=
  more = [] ∧ y = x ∨ more ≠ [] ∧ Appends more x y

namespace Gains

variable {more later : List Json} {x y z : Option Json}

theorem refl (x : Option Json) : Gains [] x x :=
  .inl ⟨rfl, rfl⟩

/-- Items that are gained one after the other are gained together. -/
theorem trans (h : Gains more x y) (h' : Gains later y z) : Gains (more ++ later) x z := by
  rcases h with ⟨rfl, rfl⟩ | ⟨some, l, before, rfl⟩
  · exact h'
  refine .inr ⟨List.append_ne_nil_of_left_ne_nil some later, l, before, ?_⟩
  rcases h' with ⟨rfl, rfl⟩ | ⟨-, m, between, rfl⟩
  · rw [List.append_nil]
  · cases between
    rw [List.append_assoc]

theorem appends (h : Gains more x y) (some : more ≠ []) : Appends more x y := by
  rcases h with ⟨none, -⟩ | ⟨-, gained⟩
  · exact absurd none some
  · exact gained

theorem eq_of_nil (h : Gains [] x y) : y = x := by
  rcases h with ⟨-, same⟩ | ⟨some, -⟩
  · exact same
  · exact absurd rfl some

/-- The items are those before and the new ones. -/
theorem getD_items? (h : Gains more x y) : (items? y).getD [] = (items? x).getD [] ++ more := by
  rcases h with ⟨rfl, rfl⟩ | ⟨-, l, before, rfl⟩
  · exact (List.append_nil _).symm
  · rw [before]
    rfl

end Gains

/-- Where a list is changed, what is neither the list nor on the way to it stays. -/
theorem Updates.value?_off_way {f : List Json → List Json} {path q : List String}
    {ms ms' : List (String × Json)} (h : Updates (relist f) path ms ms') (off : ¬ q <+: path) :
    Json.value? q (.obj ms') = Json.value? q (.obj ms) := by
  by_cases below : path <+: q
  case neg => exact h.value?_of_apart ⟨off, below⟩
  obtain ⟨rest, rfl⟩ := below
  cases rest with
  | nil => exact absurd (by rw [List.append_nil]) off
  | cons k rest =>
      -- Names lead nowhere from a list, nor from what a list takes the place of.
      obtain ⟨v, made, written⟩ := h.value?
      obtain ⟨l, before, rfl⟩ := Option.map_eq_some_iff.mp made
      rw [Json.value?_append, Json.value?_append, written, Json.value?_of_items? before]
      rfl

end Section

namespace Spec

open Section

variable {s s' : Spec} {path place : List String}

/-- The places of lists that steps append to and do nothing else with. -/
inductive ListPlace : List String → Prop
  | args : ListPlace ["process", "args"]
  | env : ListPlace ["process", "env"]
  | mounts : ListPlace ["mounts"]
  | hooks (stage : String) : ListPlace ["hooks", stage]
  | devices : ListPlace ["linux", "devices"]
  | rules : ListPlace ["linux", "resources", "devices"]
  | uidMappings : ListPlace ["linux", "uidMappings"]
  | gidMappings : ListPlace ["linux", "gidMappings"]

/-- None of them is on the way to another one. -/
theorem ListPlace.eq_or_apart (h : ListPlace path) (h' : ListPlace place) : path = place ∨ Apart path place := by
  cases h <;> cases h' <;> simp [Decidable.em]

/-- What a step appends, and to which lists. -/
def Step.additions : Step → List (List String × Json)
  | pushArg arg => [(["process", "args"], .str arg)]
  | pushEnv key value => [(["process", "env"], .str (key ++ "=" ++ value))]
  | pushEnvEntry entry => [(["process", "env"], .str entry)]
  | addDevice d => [(["linux", "devices"], (DeviceEntry.ofDevice d).toJson),
      (["linux", "resources", "devices"], (DeviceRule.ofDevice d).toJson)]
  | addUidMapping m => [(["linux", "uidMappings"], m.toJson)]
  | addGidMapping m => [(["linux", "gidMappings"], m.toJson)]
  | addMount m => [(["mounts"], m.toJson)]
  | addHook stage h => [(["hooks", stage], h.toJson)]
  | addCapability _ | setUser _ | setCwd _ | setHostname _ | setMemoryLimit _ => []

/-- What a step appends to the list at a path. -/
def Step.gives (path : List String) (step : Step) : List Json :=
  (step.additions.filter (·.1 = path)).map (·.2)

theorem Step.gives_eq_nil {step : Step} (off : ∀ addition ∈ step.additions, addition.1 ≠ path) :
    step.gives path = [] := by
  rw [gives, List.map_eq_nil_iff, List.filter_eq_nil_iff]
  exact fun addition there => by simpa using off addition there

/-- Steps of one kind give one item each, or nothing at all. -/
theorem flatMap_gives_map {α : Type} {step : α → Step} {item : α → Json}
    (one : ∀ x, (step x).gives path = [item x]) (l : List α) :
    (l.map step).flatMap (Step.gives path) = l.map item := by
  rw [List.flatMap_map, funext one, List.map_eq_flatMap]

@[inherit_doc flatMap_gives_map]
theorem flatMap_gives_map_eq_nil {α : Type} {step : α → Step} (none : ∀ x, (step x).gives path = [])
    (l : List α) : (l.map step).flatMap (Step.gives path) = [] := by
  simp only [List.flatMap_map, none, List.flatMap_eq_nil_iff, implies_true]

theorem gains_of_append {item : Json} (ok : s.append place item = (.ok (), s')) (list : ListPlace place)
    (here : ListPlace path) :
    Gains (([(place, item)].filter (·.1 = path)).map (·.2)) (s.value? path) (s'.value? path) := by
  have run := updates_of_append ok
  rcases here.eq_or_apart list with rfl | apart
  · obtain ⟨v, made, written⟩ := run.value?
    obtain ⟨l, before, rfl⟩ := Option.map_eq_some_iff.mp made
    have one : ([(path, item)].filter (·.1 = path)).map (·.2) = [item] := by simp
    rw [one]
    exact .inr ⟨List.cons_ne_nil _ _, l, before, written⟩
  · have other : place ≠ path := by
      rintro rfl
      exact apart.1 (List.prefix_refl _)
    exact .inl ⟨by simp [other], run.value?_of_apart apart⟩

/-- A step adds to a list what it gives, and does nothing else to it. -/
theorem gains_of_apply {step : Step} (ok : step.apply s = (.ok (), s')) (here : ListPlace path) :
    Gains (step.gives path) (s.value? path) (s'.value? path) := by
  have elsewhere {place : List String} {change : Option Json → Option Json}
      (writes : step.write? = some (place, change)) (none : step.gives path = []) (apart : Apart path place) :
      Gains (step.gives path) (s.value? path) (s'.value? path) :=
    .inl ⟨none, (Step.updates ok writes).value?_of_apart apart⟩
  cases step with
  | pushArg => exact gains_of_append ok .args here
  | pushEnv => exact gains_of_append ok .env here
  | pushEnvEntry => exact gains_of_append ok .env here
  | addUidMapping => exact gains_of_append ok .uidMappings here
  | addGidMapping => exact gains_of_append ok .gidMappings here
  | addMount => exact gains_of_append ok .mounts here
  | addHook stage => exact gains_of_append ok (.hooks stage) here
  | setUser | setCwd | setHostname | setMemoryLimit => exact elsewhere rfl rfl (by cases here <;> simp)
  | addCapability name =>
      obtain ⟨ms, run, members⟩ := addCapability_eq_ok ok
      have first : Json.value? path (.obj ms) = s.value? path := run.value?_of_apart (by cases here <;> simp)
      refine .inl ⟨rfl, ?_⟩
      rw [value?, toJson, members, value?_pushIntoSets name ms (by cases here <;> simp), first]
  | addDevice d =>
      obtain ⟨s₁, node, rule⟩ := addDevice_eq_ok ok
      have both := (gains_of_append node .devices here).trans (gains_of_append rule .rules here)
      rwa [← List.map_append, ← List.filter_append] at both

/-- Steps that all succeed add to a list what they give, in their order, and do nothing
else to it. -/
theorem gains_of_run {steps : List Step} (ok : s.run steps = (.ok (), s')) (here : ListPlace path) :
    Gains (steps.flatMap (Step.gives path)) (s.value? path) (s'.value? path) := by
  induction steps generalizing s with
  | nil => cases ok; exact .refl _
  | cons step steps ih =>
      obtain ⟨s₁, first, rest⟩ := run_cons_eq_ok ok
      exact (gains_of_apply first here).trans (ih rest)

/-! ### What is left alone -/

/-- A step that appends changes nothing besides its lists and the way to them. -/
theorem value?_of_apply {step : Step} {q : List String} (ok : step.apply s = (.ok (), s'))
    (appends : step.additions ≠ []) (off : ∀ addition ∈ step.additions, ¬ q <+: addition.1) :
    s'.value? q = s.value? q := by
  cases step with
  | pushArg | pushEnv | pushEnvEntry | addUidMapping | addGidMapping | addMount | addHook =>
      exact (Step.updates ok rfl).value?_off_way (off _ List.mem_cons_self)
  | addDevice d =>
      obtain ⟨s₁, node, rule⟩ := addDevice_eq_ok ok
      have kept := (updates_of_append rule).value?_off_way (off _ (List.mem_cons_of_mem _ List.mem_cons_self))
      exact kept.trans ((updates_of_append node).value?_off_way (off _ List.mem_cons_self))
  | addCapability | setUser | setCwd | setHostname | setMemoryLimit => exact absurd rfl appends

theorem value?_of_run_appends {steps : List Step} {q : List String} (ok : s.run steps = (.ok (), s'))
    (appends : ∀ step ∈ steps, step.additions ≠ [])
    (off : ∀ step ∈ steps, ∀ addition ∈ step.additions, ¬ q <+: addition.1) : s'.value? q = s.value? q := by
  induction steps generalizing s with
  | nil => cases ok; rfl
  | cons step steps ih =>
      obtain ⟨s₁, first, rest⟩ := run_cons_eq_ok ok
      rw [List.forall_mem_cons] at appends off
      rw [ih rest appends.2 off.2, value?_of_apply first appends.1 off.1]

/-- Lists have more items behind those that they had, and nothing else is changed or
made: not where a path leads that is no way to a list with new items. -/
structure Adds (table : List (List String × List Json)) (s t : Spec) : Prop where
  gained : ∀ entry ∈ table, Gains entry.2 (s.value? entry.1) (t.value? entry.1)
  kept : ∀ q, (∀ entry ∈ table, entry.2 ≠ [] → ¬ q <+: entry.1) → t.value? q = s.value? q

/-- Steps that only append add what they give to the lists of a table, if it lists them
all. -/
theorem adds_of_run {steps : List Step} {table : List (List String × List Json)}
    (ok : s.run steps = (.ok (), s')) (appends : ∀ step ∈ steps, step.additions ≠ [])
    (lists : ∀ entry ∈ table, ListPlace entry.1)
    (gives : ∀ entry ∈ table, steps.flatMap (Step.gives entry.1) = entry.2)
    (all : ∀ step ∈ steps, ∀ addition ∈ step.additions, ∃ entry ∈ table, entry.1 = addition.1) :
    Adds table s s' where
  gained entry mem := gives entry mem ▸ gains_of_run ok (lists entry mem)
  kept q off := by
    refine value?_of_run_appends ok appends fun step mem addition there => ?_
    obtain ⟨entry, listed, same⟩ := all step mem addition there
    have given : addition.2 ∈ entry.2 := by
      rw [← gives entry listed, List.mem_flatMap]
      refine ⟨step, mem, List.mem_map_of_mem (List.mem_filter.mpr ⟨there, ?_⟩)⟩
      exact decide_eq_true same.symm
    rw [← same]
    exact off entry listed (List.ne_nil_of_mem given)

end Spec

end Sandbox
