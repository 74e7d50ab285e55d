import Sandbox.Proofs.Json.Prune
import Sandbox.Proofs.Spec.Outcome
import Sandbox.Proofs.Spec.Readable

/-!
A null section is a missing one.

Deleting the nulls at the places of a set and taking a step may be done in either order:
the step comes to the same, down to its error, and what is left is the same
(`Spec.passes_apply`). So it is for every run of steps (`Spec.runEach_prune`), and two
templates that differ by such nulls only are not told apart by any run. The first two hold
of nulls wherever they are members of objects; the third is said of the sections that are
made on demand (`Spec.null_section_is_missing`), which is where a step looks at them.
-/

namespace Sandbox

open Json (obj hereditary_sorted prune prune_arr prune_obj pruneMembers left? left?_null left?_of_ne get?_pruneMembers
  pruneMembers_set)

namespace Section

variable {places : List String → Bool} {above path : List String} {k : String} {ms : List (String × Json)}
  {x : Option Json}

/-! ### What stands in the place of a section -/

theorem objectIn_left? (path : List String) (x : Option Json) :
    objectIn path (left? places k x) = (objectIn path x).map (pruneMembers fun q => places (k :: q)) := by
  cases x with
  | none => rfl
  | some j =>
      cases j with
      | null =>
          rcases left?_null places k with gone | stays
          · rw [gone]
            rfl
          · rw [stays]
            rfl
      | bool | num | str | arr | obj => rw [left?_of_ne (by simp)]; rfl

theorem listIn_left? (path : List String) (x : Option Json) : listIn path (left? places k x) = listIn path x := by
  cases x with
  | none => rfl
  | some j =>
      cases j with
      | null =>
          rcases left?_null places k with gone | stays
          · rw [gone]
            rfl
          · rw [stays]
      | bool | num | str | arr | obj => rw [left?_of_ne (by simp)]; rfl

theorem sorted_of_objectIn {inner : List (String × Json)} (sorted : (obj ms).Sorted)
    (ok : objectIn path (Members.get? k ms) = .ok inner) : (obj inner).Sorted :=
  hereditary_of_members? (e := 0) hereditary_sorted ((objectIn_eq_ok_iff path).mp ok)
    fun _ there => hereditary_sorted.get? (d := 0) sorted there

/-! ### Walks -/

/-- The outcome of a change, and what is left of the members after it. -/
def pruned (places : List String → Bool) :
    Except ConfigError Unit × List (String × Json) → Except ConfigError Unit × List (String × Json) :=
  Prod.map id (pruneMembers places)

/-- Changes the members of a section among others, as each step of a walk does. -/
def within (path : List String) (k : String)
    (f : List (String × Json) → Except ConfigError Unit × List (String × Json)) (ms : List (String × Json)) :
    Except ConfigError Unit × List (String × Json) :=
  match objectIn path (Members.get? k ms) with
  | .error e => (.error e, ms)
  | .ok inner => ((f inner).1, Members.set k (.obj (f inner).2) ms)

/-- A change within a section may be made after nulls are deleted if that is so of the
members of the section. -/
theorem within_prune {f : List (String × Json) → Except ConfigError Unit × List (String × Json)}
    (sorted : (obj ms).Sorted)
    (inside : ∀ inner, (obj inner).Sorted → f (pruneMembers (fun q => places (k :: q)) inner) =
      pruned (fun q => places (k :: q)) (f inner)) :
    within path k f (pruneMembers places ms) = pruned places (within path k f ms) := by
  obtain ⟨ordered, -⟩ := Json.sorted_obj.mp sorted
  rw [within, within, get?_pruneMembers ordered, objectIn_left?]
  cases found : objectIn path (Members.get? k ms) with
  | error e => rfl
  | ok inner =>
      have same := inside inner (sorted_of_objectIn sorted found)
      simp only [Except.map, same, pruned, Prod.map]
      rw [pruneMembers_set ordered (by simp), prune_obj]

theorem updateObjectFrom_prune {name : String} {v : Json} (nonnull : v ≠ .null) (bare : ∀ places, v.prune places = v)
    (sorted : (obj ms).Sorted) :
    updateObjectFrom (Members.set name v) above path (pruneMembers places ms) =
      pruned places (updateObjectFrom (Members.set name v) above path ms) := by
  induction path generalizing above ms places with
  | nil =>
      obtain ⟨ordered, -⟩ := Json.sorted_obj.mp sorted
      rw [updateObjectFrom, updateObjectFrom, pruned, Prod.map, pruneMembers_set ordered nonnull, bare]
      rfl
  | cons k ks ih => exact within_prune sorted fun inner sorted => ih sorted

theorem updateListFrom_prune (f : List Json → List Json) (sorted : (obj ms).Sorted) :
    updateListFrom f above path (pruneMembers places ms) = pruned places (updateListFrom f above path ms) := by
  induction path generalizing above ms places with
  | nil => rfl
  | cons k ks ih =>
      cases ks with
      | nil =>
          obtain ⟨ordered, -⟩ := Json.sorted_obj.mp sorted
          rw [updateListFrom, updateListFrom, get?_pruneMembers ordered, listIn_left?]
          cases listIn (above ++ [k]) (Members.get? k ms) with
          | error e => rfl
          | ok l =>
              dsimp only [pruned, Prod.map]
              rw [pruneMembers_set ordered (by simp), prune_arr]
              rfl
      | cons k' ks => exact within_prune sorted fun inner sorted => ih sorted

end Section

namespace Spec

open Section

variable {places : List String → Bool} {s : Spec}

/-- The specification without the nulls at the places of a set. -/
def prune (places : List String → Bool) (s : Spec) : Spec :=
  ⟨pruneMembers places s.members⟩

/-- A step, or a part of one, may be taken before or after nulls are deleted. -/
structure Passes (f : Spec → Except ConfigError Unit × Spec) : Prop where
  prune : ∀ (places : List String → Bool) (s : Spec), s.toJson.Sorted →
    f (s.prune places) = Prod.map id (Spec.prune places) (f s)
  sorted : ∀ s : Spec, s.toJson.Sorted → (f s).2.toJson.Sorted

/-! ### Parts of steps -/

theorem passes_updateList {f : List Json → List Json} (keeps : ∀ l, (Json.arr l).Sorted → (Json.arr (f l)).Sorted)
    (path : List String) : Passes fun s => s.update (Section.updateList path f) where
  prune := by
    intro places s sorted
    rw [update, update, prune, Section.updateList, Section.updateList, updateListFrom_prune f sorted]
    rfl
  sorted := fun _ => hereditary_updateList hereditary_sorted (Nat.le_refl _) fun _ l _ => keeps l

theorem passes_append (path : List String) {item : Json} (shallow : Json.Readable 2 item) :
    Passes (append · path item) :=
  passes_updateList (fun _ items => hereditary_concat (e := 0) hereditary_sorted items shallow.sorted) path

theorem passes_put (path : List String) (name : String) {v : Json} (nonnull : v ≠ .null)
    (bare : ∀ places, v.prune places = v) (shallow : Json.Readable 2 v) : Passes (put · path name v) where
  prune := by
    intro places s sorted
    rw [put, put, update, update, prune, Section.updateObject, Section.updateObject,
      updateObjectFrom_prune nonnull bare sorted]
    rfl
  sorted := fun _ => hereditary_put hereditary_sorted (Nat.le_refl _) shallow

theorem Passes.andThen {f g : Spec → Except ConfigError Unit × Spec} (first : Passes f) (second : Passes g) :
    Passes fun s => andThen (f s) g where
  prune := by
    intro places s sorted
    have after := first.sorted s sorted
    rw [first.prune places s sorted]
    rcases run : f s with ⟨_ | _, t⟩ <;> rw [run] at after
    · rfl
    · exact second.prune places t after
  sorted := by
    intro s sorted
    have after := first.sorted s sorted
    rcases run : f s with ⟨_ | _, t⟩ <;> rw [run] at after
    · exact after
    · exact second.sorted t after

theorem passes_checkList (path : List String) : Passes fun s => (s.checkList path, s) where
  prune := by
    intro places s sorted
    have outcome (u : Spec) : u.checkList path = (updateListFrom id [] path u.members).1 :=
      (updateListFrom_outcome id [] path u.members).symm
    have same : (s.prune places).checkList path = s.checkList path := by
      rw [outcome, outcome, prune, updateListFrom_prune id sorted]
      rfl
    dsimp only [Prod.map]
    rw [same]
    rfl
  sorted := fun _ sorted => sorted

/-! ### The sets of capabilities -/

theorem pruneMembers_map_pushUniqueInto (name : String) (sets : List (String × Json)) :
    pruneMembers places (sets.map fun (k, j) => (k, pushUniqueInto name j)) =
      (pruneMembers places sets).map fun (k, j) => (k, pushUniqueInto name j) := by
  induction sets generalizing places with
  | nil => rfl
  | cons m sets ih =>
      obtain ⟨k, j⟩ := m
      have stays : Json.stays places (k, pushUniqueInto name j) = Json.stays places (k, j) := by
        cases j <;> rfl
      have value : (pushUniqueInto name j).prune (fun q => places (k :: q)) =
          pushUniqueInto name (j.prune fun q => places (k :: q)) := by
        cases j <;> rfl
      rw [List.map_cons, pruneMembers, pruneMembers, stays, value, ih]
      split <;> rfl

theorem pushIntoSets_prune {ms : List (String × Json)} (sorted : (obj ms).Sorted) (name : String) :
    pushIntoSets name (pruneMembers places ms) = pruneMembers places (pushIntoSets name ms) := by
  obtain ⟨ordered, values⟩ := Json.sorted_obj.mp sorted
  unfold pushIntoSets
  rw [get?_pruneMembers ordered]
  rcases found : Members.get? "process" ms with _ | (_ | _ | _ | _ | _ | process)
  case none => rfl
  case some.null => rcases left?_null places "process" with same | same <;> simp only [same]
  case some.obj =>
    obtain ⟨orderedInside, -⟩ := Json.sorted_obj.mp (values _ (Members.mem_of_get? found))
    rw [left?_of_ne (by simp), prune_obj]
    dsimp only
    rw [get?_pruneMembers orderedInside]
    rcases inProcess : Members.get? "capabilities" process with _ | (_ | _ | _ | _ | _ | sets)
    case none => rfl
    case some.null =>
      rcases left?_null (fun q => places ("process" :: q)) "capabilities" with same | same <;> simp only [same]
    case some.obj =>
      rw [left?_of_ne (by simp), prune_obj]
      dsimp only
      rw [pruneMembers_set ordered (by simp), prune_obj, pruneMembers_set orderedInside (by simp), prune_obj,
        pruneMembers_map_pushUniqueInto]
    all_goals
      rw [left?_of_ne (by simp)]
      rfl
  all_goals
    rw [left?_of_ne (by simp)]
    rfl

theorem passes_pushIntoSets (name : String) : Passes fun s => (.ok (), ⟨pushIntoSets name s.members⟩) where
  prune := by
    intro places s sorted
    rw [prune, pushIntoSets_prune sorted]
    rfl
  sorted := fun _ => hereditary_pushIntoSets (d := 0) hereditary_sorted name

/-! ### Steps -/

theorem prune_toJson_user (u : User) (places : List String → Bool) : u.toJson.prune places = u.toJson := by
  refine Json.prune_obj_of_flat fun m mem => ?_
  have mem := Members.mem_ofList mem
  simp only [List.mem_cons, List.not_mem_nil, or_false] at mem
  rcases mem with rfl | rfl | rfl <;> exact ⟨nofun, rfl⟩

theorem passes_apply (step : Step) : Passes step.apply := by
  have text (t : String) : Json.Readable 2 (.str t) := Json.readable_str 2 t
  cases step with
  | pushArg arg => exact passes_append ["process", "args"] (text arg)
  | pushEnv key value => exact passes_append ["process", "env"] (text (key ++ "=" ++ value))
  | pushEnvEntry entry => exact passes_append ["process", "env"] (text entry)
  | addUidMapping m => exact passes_append ["linux", "uidMappings"] m.readable
  | addGidMapping m => exact passes_append ["linux", "gidMappings"] m.readable
  | addMount m => exact passes_append ["mounts"] m.readable
  | addHook stage h => exact passes_append ["hooks", stage] h.readable
  | setUser u =>
      have nonnull : u.toJson ≠ .null := by simp [User.toJson, Json.ofList]
      exact passes_put ["process"] "user" nonnull (prune_toJson_user u) u.readable
  | setCwd cwd =>
      have nonnull : Json.str cwd ≠ .null := by simp
      exact passes_put ["process"] "cwd" nonnull (fun _ => rfl) (text cwd)
  | setHostname hostname =>
      have nonnull : Json.str hostname ≠ .null := by simp
      exact passes_put [] "hostname" nonnull (fun _ => rfl) (text hostname)
  | setMemoryLimit bytes =>
      have nonnull : Json.nat bytes.toNat ≠ .null := by simp [Json.nat]
      exact passes_put ["linux", "resources", "memory"] "limit" nonnull (fun _ => rfl)
        (Json.readable_uint64 2 bytes)
  | addCapability name =>
      refine Passes.andThen ?_ (passes_pushIntoSets name)
      exact passes_updateList (fun _ => hereditary_pushUnique (e := 0) hereditary_sorted name) ["linux", "capabilities"]
  | addDevice device =>
      refine (passes_checkList ["linux", "devices"]).andThen ?_
      refine (passes_checkList ["linux", "resources", "devices"]).andThen ?_
      refine (passes_append ["linux", "devices"] (DeviceEntry.readable _)).andThen ?_
      exact passes_append ["linux", "resources", "devices"] (DeviceRule.readable _)

/-- Nulls may be deleted before a run of steps or after it. -/
theorem runEach_prune (places : List String → Bool) (sorted : s.toJson.Sorted) (steps : List Step) :
    (s.prune places).runEach steps = Prod.map id (prune places) (s.runEach steps) := by
  induction steps generalizing s with
  | nil => rfl
  | cons step steps ih =>
      obtain ⟨same, after⟩ := passes_apply step
      rw [runEach, runEach, same places s sorted]
      dsimp only [Prod.map]
      rw [ih (after s sorted)]
      rfl

/-- The sections that are made where they are missing or null. -/
def madeOnDemand : List String → Bool
  | ["process"] | ["linux"] | ["mounts"] | ["hooks"] | ["hooks", _] | ["process", "args"] | ["process", "env"] |
    ["linux", "resources"] | ["linux", "resources", "memory"] | ["linux", "resources", "devices"] |
    ["linux", "capabilities"] | ["linux", "devices"] | ["linux", "uidMappings"] | ["linux", "gidMappings"] => true
  | _ => false

/-- Templates of which one is what is left of the other when some null sections are deleted
behave alike: each step of a run comes to the same on both, and when the null sections that
remain are deleted the documents that are left are the same. The members of a template are
in order, as they are in every document that is read. -/
theorem null_section_is_missing (s t : Spec) (sorted : s.toJson.Sorted)
    (deleted : Json.Deletes madeOnDemand s.members t.members) (steps : List Step) :
    (t.runEach steps).1 = (s.runEach steps).1 ∧
      (t.runEach steps).2.prune madeOnDemand = (s.runEach steps).2.prune madeOnDemand := by
  have same : t.prune madeOnDemand = s.prune madeOnDemand := congrArg Spec.mk deleted.pruneMembers_eq
  have left := runEach_prune madeOnDemand sorted steps
  have right := runEach_prune madeOnDemand (deleted.sorted sorted) steps
  rw [same, left] at right
  obtain ⟨outcomes, documents⟩ := Prod.mk.inj right
  exact ⟨outcomes.symm, documents.symm⟩

/-- A template with null sections at each level, and what is left of it without two of them. -/
theorem null_section_is_missing_sample :
    let s : Spec := ⟨[("hooks", .null), ("linux", .obj [("devices", .null), ("resources", .obj [("devices", .null)])]),
      ("process", .obj [("args", .null), ("env", .nat 1)])]⟩
    let t : Spec := ⟨[("linux", .obj [("resources", .obj [("devices", .null)])]),
      ("process", .obj [("args", .null), ("env", .nat 1)])]⟩
    let steps : List Step := [.addDevice ⟨.ofString "/dev/null", .character, 1, 3⟩, .pushEnvEntry "A=1",
      .addHook "poststop" ⟨"/bin/true", []⟩]
    (t.runEach steps).1 = [.ok (), .error (.sectionShape ["process", "env"] .list "a number"), .ok ()] ∧
      (t.runEach steps).1 = (s.runEach steps).1 ∧
      (t.runEach steps).2.prune madeOnDemand = (s.runEach steps).2.prune madeOnDemand := by
  intro s t steps
  have linux : (obj [("devices", .null), ("resources", .obj [("devices", .null)])]).Sorted :=
    ⟨by decide, trivial, ⟨by decide, trivial, trivial⟩, trivial⟩
  have process : (obj [("args", .null), ("env", .nat 1)]).Sorted := ⟨by decide, trivial, trivial, trivial⟩
  have sorted : s.toJson.Sorted := ⟨by decide, trivial, linux, process, trivial⟩
  have devices : madeOnDemand ["linux", "devices"] = true := rfl
  have hooks : madeOnDemand ["hooks"] = true := rfl
  have deleted : Json.Deletes madeOnDemand s.members t.members :=
    .gone hooks (.within (.gone devices (.kept _ (.nil _))) (.kept _ (.nil _)))
  exact ⟨by decide +kernel, null_section_is_missing s t sorted deleted steps⟩

end Spec

end Sandbox
