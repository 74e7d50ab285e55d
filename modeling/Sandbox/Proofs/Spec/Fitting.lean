import Sandbox.Proofs.Spec.Growth

/-!
When a step succeeds.

A list at a path takes items if every section on the way and the list itself are of the
right shape or missing (`Spec.TakesItems`); an object takes members likewise
(`Spec.TakesMembers`). That is all a step asks for (`Spec.apply_eq_ok_iff`). Steps change
no shape, so a run succeeds exactly when each of its steps would on the specification at
the start (`Spec.run_eq_ok_iff`).
-/

namespace Sandbox

namespace Section

variable {x : Option Json} {l : List Json} {ms : List (String × Json)}

theorem objectIn_eq_ok_iff (path : List String) : objectIn path x = .ok ms ↔ members? x = some ms := by
  refine ⟨members?_of_objectIn, fun found => ?_⟩
  unfold members? at found
  split at found <;> cases found <;> rfl

theorem listIn_eq_ok_iff (path : List String) : listIn path x = .ok l ↔ items? x = some l := by
  refine ⟨items?_of_listIn, fun found => ?_⟩
  unfold items? at found
  split at found <;> cases found <;> rfl

end Section

namespace Spec

open Section

variable {s t : Spec} {path : List String} {k : String} {ks : List String}
  {ms inner : List (String × Json)}

/-- The object at a path can take more members: it and each section on the way is an
object, null or missing. -/
def TakesMembers (s : Spec) (path : List String) : Prop :=
  ∀ q ∈ path.inits, (members? (s.value? q)).isSome

/-- The list at a path can take more items: each section on the way is an object, null or
missing, and the list itself is a list, null or missing. -/
structure TakesItems (s : Spec) (path : List String) : Prop where
  way : s.TakesMembers path.dropLast
  items : (items? (s.value? path)).isSome

instance : Decidable (s.TakesMembers path) :=
  inferInstanceAs (Decidable (∀ q ∈ path.inits, _))

instance : Decidable (s.TakesItems path) :=
  decidable_of_iff (_ ∧ _) ⟨fun h => ⟨h.1, h.2⟩, fun h => ⟨h.way, h.items⟩⟩

/-! ### One section after the other -/

theorem takesMembers_nil (s : Spec) : s.TakesMembers [] := by
  simp [TakesMembers, value?, toJson, Json.value?, members?]

/-- What is below a section is found by way of its members. -/
theorem value?_of_members? (found : members? (Members.get? k ms) = some inner) (ne : ks ≠ []) :
    value? ⟨ms⟩ (k :: ks) = value? ⟨inner⟩ ks := by
  cases ks with
  | nil => exact absurd rfl ne
  | cons k' ks => exact bind_value?_of_members? found k' ks

theorem takesMembers_cons_iff :
    TakesMembers ⟨ms⟩ (k :: ks) ↔
      ∃ inner, members? (Members.get? k ms) = some inner ∧ TakesMembers ⟨inner⟩ ks := by
  have here : value? ⟨ms⟩ [k] = Members.get? k ms := value?_singleton k ms
  constructor
  · intro takes
    have first := takes [k] (by simp)
    rw [here] at first
    obtain ⟨inner, found⟩ := Option.isSome_iff_exists.mp first
    refine ⟨inner, found, fun q mem => ?_⟩
    cases q with
    | nil => rfl
    | cons k' q =>
        rw [← value?_of_members? found (List.cons_ne_nil k' q)]
        exact takes _ (by simpa using mem)
  · rintro ⟨inner, found, takes⟩ q mem
    cases q with
    | nil => rfl
    | cons k' q =>
        rw [List.mem_inits, List.cons_prefix_cons] at mem
        obtain ⟨rfl, mem⟩ := mem
        cases q with
        | nil => rw [here, found]; rfl
        | cons k'' q =>
            rw [value?_of_members? found (List.cons_ne_nil k'' q)]
            exact takes _ ((List.mem_inits _ _).mpr mem)

theorem takesItems_singleton_iff : TakesItems ⟨ms⟩ [k] ↔ ∃ l, items? (Members.get? k ms) = some l := by
  have here : value? ⟨ms⟩ [k] = Members.get? k ms := value?_singleton k ms
  rw [← Option.isSome_iff_exists, ← here]
  exact ⟨fun takes => takes.items, fun items => ⟨takesMembers_nil _, items⟩⟩

theorem takesItems_cons_iff (ne : ks ≠ []) :
    TakesItems ⟨ms⟩ (k :: ks) ↔
      ∃ inner, members? (Members.get? k ms) = some inner ∧ TakesItems ⟨inner⟩ ks := by
  have way : (k :: ks).dropLast = k :: ks.dropLast := List.dropLast_cons_of_ne_nil ne
  constructor
  · intro takes
    obtain ⟨inner, found, below⟩ := takesMembers_cons_iff.mp (way ▸ takes.way)
    exact ⟨inner, found, below, value?_of_members? found ne ▸ takes.items⟩
  · rintro ⟨inner, found, below, items⟩
    exact ⟨way ▸ takesMembers_cons_iff.mpr ⟨inner, found, below⟩, by rwa [value?_of_members? found ne]⟩

/-- Nothing is in the way in an empty specification. -/
theorem takesItems_of_empty (ne : path ≠ []) : TakesItems ⟨[]⟩ path := by
  induction path with
  | nil => exact absurd rfl ne
  | cons k ks ih =>
      cases ks with
      | nil => exact takesItems_singleton_iff.mpr ⟨[], rfl⟩
      | cons k' ks =>
          have further := List.cons_ne_nil k' ks
          exact (takesItems_cons_iff further).mpr ⟨[], rfl, ih further⟩

/-! ### What a change asks for -/

theorem updateListFrom_eq_ok_iff {f : List Json → List Json} {above : List String} (ne : path ≠ []) :
    (updateListFrom f above path ms).1 = .ok () ↔ TakesItems ⟨ms⟩ path := by
  induction path generalizing above ms with
  | nil => exact absurd rfl ne
  | cons k ks ih =>
      cases ks with
      | nil =>
          simp only [takesItems_singleton_iff, ← listIn_eq_ok_iff (above ++ [k]), updateListFrom]
          cases listIn (above ++ [k]) (Members.get? k ms) with
          | error e => simp
          | ok l => simp
      | cons k' ks =>
          have further := List.cons_ne_nil k' ks
          simp only [takesItems_cons_iff further, ← objectIn_eq_ok_iff (above ++ [k]), updateListFrom]
          cases objectIn (above ++ [k]) (Members.get? k ms) with
          | error e => simp
          | ok inner => simpa using ih further

theorem updateObjectFrom_eq_ok_iff {f : List (String × Json) → List (String × Json)} {above : List String} :
    (updateObjectFrom f above path ms).1 = .ok () ↔ TakesMembers ⟨ms⟩ path := by
  induction path generalizing above ms with
  | nil => simpa [updateObjectFrom] using takesMembers_nil _
  | cons k ks ih =>
      simp only [takesMembers_cons_iff, ← objectIn_eq_ok_iff (above ++ [k]), updateObjectFrom]
      cases objectIn (above ++ [k]) (Members.get? k ms) with
      | error e => simp
      | ok inner => simpa using ih

theorem updateListFrom_cons (f : List Json → List Json) (above : List String) (k : String) (ne : ks ≠ [])
    (ms : List (String × Json)) :
    updateListFrom f above (k :: ks) ms =
      match objectIn (above ++ [k]) (Members.get? k ms) with
      | .error e => (.error e, ms)
      | .ok inner =>
        let r := updateListFrom f (above ++ [k]) ks inner
        (r.1, Members.set k (.obj r.2) ms) := by
  cases ks with
  | nil => exact absurd rfl ne
  | cons k' ks => rfl

/-- Nothing is in the way where there are no members. -/
theorem updateListFrom_nil_ok (f : List Json → List Json) (above : List String) (ne : path ≠ []) :
    (updateListFrom f above path []).1 = .ok () :=
  (updateListFrom_eq_ok_iff ne).mpr (takesItems_of_empty ne)

/-- The check of a list tells what a change of it comes to. -/
theorem updateListFrom_outcome (f : List Json → List Json) (above path : List String)
    (ms : List (String × Json)) : (updateListFrom f above path ms).1 = checkListFrom above path ms := by
  induction path generalizing above ms with
  | nil => rfl
  | cons k ks ih =>
      cases ks with
      | nil =>
          rw [updateListFrom, checkListFrom]
          rcases Members.get? k ms with _ | (_ | _ | _ | _ | _ | _) <;> rfl
      | cons k' ks =>
          have further := List.cons_ne_nil k' ks
          rw [updateListFrom_cons f above k further, checkListFrom]
          rcases Members.get? k ms with _ | (_ | _ | _ | _ | _ | inner)
          case none | some.null => exact updateListFrom_nil_ok f _ further
          case some.obj => exact ih (above ++ [k]) inner
          all_goals rfl

theorem checkListFrom_eq_ok_iff {above : List String} (ne : path ≠ []) :
    checkListFrom above path ms = .ok () ↔ TakesItems ⟨ms⟩ path := by
  rw [← updateListFrom_outcome id]
  exact updateListFrom_eq_ok_iff ne

theorem append_eq_ok_iff {item : Json} (ne : path ≠ []) :
    (s.append path item).1 = .ok () ↔ s.TakesItems path :=
  updateListFrom_eq_ok_iff ne

theorem put_eq_ok_iff {name : String} {v : Json} : (s.put path name v).1 = .ok () ↔ s.TakesMembers path :=
  updateObjectFrom_eq_ok_iff

theorem checkList_eq_ok_iff (ne : path ≠ []) : s.checkList path = .ok () ↔ s.TakesItems path :=
  checkListFrom_eq_ok_iff ne

/-! ### Nothing takes its shape back -/

theorem isSome_members?_of_allows {x y : Option Json} (h : Growth.object.Allows x y) :
    (members? y).isSome = (members? x).isSome := by
  rcases h with rfl | ⟨ms, ns, before, rfl⟩
  · rfl
  · rw [before]
    rfl

theorem isSome_items?_of_allows {x y : Option Json} (h : Growth.list.Allows x y) :
    (items? y).isSome = (items? x).isSome := by
  rcases h with rfl | ⟨l, more, before, rfl⟩
  · rfl
  · rw [before]
    rfl

theorem Grows.takesMembers_iff (h : Grows s t) (way : ∀ q ∈ path.inits, growth q = .object) :
    t.TakesMembers path ↔ s.TakesMembers path := by
  refine forall₂_congr fun q mem => ?_
  have allowed := h q
  rw [way q mem] at allowed
  rw [isSome_members?_of_allows allowed]

theorem Grows.takesItems_iff (h : Grows s t) (items : growth path = .list)
    (way : ∀ q ∈ path.dropLast.inits, growth q = .object) : t.TakesItems path ↔ s.TakesItems path := by
  have sections := h.takesMembers_iff way
  have allowed := h path
  rw [items] at allowed
  have list := isSome_items?_of_allows allowed
  exact ⟨fun takes => ⟨sections.mp takes.way, list ▸ takes.items⟩,
    fun takes => ⟨sections.mpr takes.way, list ▸ takes.items⟩⟩

/-! ### Steps -/

/-- What a step asks of a specification. -/
def Step.Fits (s : Spec) : Step → Prop
  | pushArg _ => s.TakesItems ["process", "args"]
  | pushEnv .. | pushEnvEntry _ => s.TakesItems ["process", "env"]
  | addCapability _ => s.TakesItems ["linux", "capabilities"]
  | addDevice _ => s.TakesItems ["linux", "devices"] ∧ s.TakesItems ["linux", "resources", "devices"]
  | addUidMapping _ => s.TakesItems ["linux", "uidMappings"]
  | addGidMapping _ => s.TakesItems ["linux", "gidMappings"]
  | addMount _ => s.TakesItems ["mounts"]
  | addHook stage _ => s.TakesItems ["hooks", stage]
  | setUser _ | setCwd _ => s.TakesMembers ["process"]
  | setHostname _ => True
  | setMemoryLimit _ => s.TakesMembers ["linux", "resources", "memory"]

/-- What a step asks for is there later if it was there before, and not otherwise. -/
theorem Grows.fits_iff (h : Grows s t) (step : Step) : step.Fits t ↔ step.Fits s := by
  cases step with
  | pushArg | pushEnv | pushEnvEntry | addCapability | addUidMapping | addGidMapping | addMount | addHook =>
      exact h.takesItems_iff rfl (by simp [growth])
  | addDevice =>
      exact and_congr (h.takesItems_iff rfl (by simp [growth])) (h.takesItems_iff rfl (by simp [growth]))
  | setUser | setCwd | setMemoryLimit => exact h.takesMembers_iff (by simp [growth])
  | setHostname => exact Iff.rfl

theorem andThen_ok_iff {r : Except ConfigError Unit × Spec} {next : Spec → Except ConfigError Unit × Spec} :
    (andThen r next).1 = .ok () ↔ r.1 = .ok () ∧ (next r.2).1 = .ok () := by
  obtain ⟨outcome, t⟩ := r
  cases outcome with
  | error e => simp [andThen]
  | ok _ => simp [andThen]

/-- A step succeeds exactly on specifications that have what it asks for. -/
theorem apply_eq_ok_iff {step : Step} : (step.apply s).1 = .ok () ↔ step.Fits s := by
  have further {k : String} {ks : List String} : k :: ks ≠ [] := List.cons_ne_nil k ks
  cases step with
  | pushArg | pushEnv | pushEnvEntry | addUidMapping | addGidMapping | addMount | addHook =>
      exact append_eq_ok_iff further
  | setUser | setCwd | setMemoryLimit => exact put_eq_ok_iff
  | setHostname => exact iff_of_true rfl trivial
  | addCapability name =>
      have list : (updateList ["linux", "capabilities"] (pushUnique name) s.members).1 = .ok () ↔
          s.TakesItems ["linux", "capabilities"] := updateListFrom_eq_ok_iff (List.cons_ne_nil _ _)
      rw [Step.apply, addCapability, andThen_ok_iff]
      exact (and_iff_left rfl).trans list
  | addDevice d =>
      have node : Grows s (s.append ["linux", "devices"] (DeviceEntry.ofDevice d).toJson).2 :=
        grows_append rfl (by simp [growth]) _
      have rule : TakesItems _ ["linux", "resources", "devices"] ↔ s.TakesItems ["linux", "resources", "devices"] :=
        node.takesItems_iff rfl (by simp [growth])
      simp only [Step.apply, addDevice, andThen_ok_iff, checkList_eq_ok_iff further, append_eq_ok_iff further, rule]
      constructor
      · rintro ⟨devices, rules, _⟩
        exact ⟨devices, rules⟩
      · rintro ⟨devices, rules⟩
        exact ⟨devices, rules, devices, rules⟩

/-- A run succeeds exactly when each of its steps fits the specification at its start. -/
theorem run_eq_ok_iff {steps : List Step} : (s.run steps).1 = .ok () ↔ ∀ step ∈ steps, step.Fits s := by
  induction steps generalizing s with
  | nil => simp [run]
  | cons step steps ih =>
      rw [run, andThen_ok_iff, apply_eq_ok_iff, ih, List.forall_mem_cons]
      simp only [(grows_apply s step).fits_iff]

end Spec

end Sandbox
