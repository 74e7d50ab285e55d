import Sandbox.Proofs.Spec.Fitting

/-!
The outcome of a step.

A walk to a section makes what is missing on the way as it goes, but where something had
to be made there is nothing below that could stop it. So a step that fails has changed
nothing (`Spec.failed_steps_change_nothing`), and looking at a list tells beforehand what
a change of it comes to (`Spec.updateListFrom_outcome`).

Steps leave every section on the way of another step as fit or unfit as it was. What a
step comes to, down to the error, is therefore settled by the template: it is the same
after any steps as before them (`Spec.outcome_settled_by_template`).
-/

namespace Sandbox

namespace Section

variable {above path ks : List String} {k : String} {ms ns : List (String × Json)} {x y : Option Json}
  {e : ConfigError} {f : List Json → List Json}

/-! ### Failing changes nothing -/

theorem updateObjectFrom_nil_ok (f : List (String × Json) → List (String × Json)) (above path : List String) :
    (updateObjectFrom f above path []).1 = .ok () := by
  induction path generalizing above with
  | nil => rfl
  | cons k ks ih => exact ih (above ++ [k])

theorem updateObjectFrom_of_error {f : List (String × Json) → List (String × Json)}
    (failed : (updateObjectFrom f above path ms).1 = .error e) : (updateObjectFrom f above path ms).2 = ms := by
  induction path generalizing above ms with
  | nil => cases failed
  | cons k ks ih =>
      rw [updateObjectFrom] at failed ⊢
      rcases found : Members.get? k ms with _ | (_ | _ | _ | _ | _ | inner) <;>
        simp only [found, objectIn] at failed ⊢
      case none | some.null =>
        rw [updateObjectFrom_nil_ok] at failed
        cases failed
      case some.obj => rw [ih failed, Members.set_of_get? found]

theorem updateListFrom_of_error (failed : (updateListFrom f above path ms).1 = .error e) :
    (updateListFrom f above path ms).2 = ms := by
  induction path generalizing above ms with
  | nil => rfl
  | cons k ks ih =>
      cases ks with
      | nil =>
          rw [updateListFrom] at failed ⊢
          split at failed
          · rfl
          · cases failed
      | cons k' ks =>
          have further := List.cons_ne_nil k' ks
          rw [Spec.updateListFrom_cons f above k further] at failed ⊢
          rcases found : Members.get? k ms with _ | (_ | _ | _ | _ | _ | inner) <;>
            simp only [found, objectIn] at failed ⊢
          case none | some.null =>
            rw [Spec.updateListFrom_nil_ok f _ further] at failed
            cases failed
          case some.obj => rw [ih failed, Members.set_of_get? found]

/-! ### What is in the way -/

/-- Where a section may have come from another, either both are in the way or neither. -/
theorem objectIn_of_allows (h : Growth.object.Allows x y) (path : List String) :
    (∃ e, objectIn path x = .error e ∧ objectIn path y = .error e) ∨
      ∃ ms ns, objectIn path x = .ok ms ∧ objectIn path y = .ok ns := by
  rcases h with rfl | ⟨ms, ns, before, rfl⟩
  · cases objectIn path y with
    | error e => exact .inl ⟨e, rfl, rfl⟩
    | ok ms => exact .inr ⟨ms, ms, rfl, rfl⟩
  · exact .inr ⟨ms, ns, (objectIn_eq_ok_iff path).mpr before, rfl⟩

@[inherit_doc objectIn_of_allows]
theorem listIn_of_allows (h : Growth.list.Allows x y) (path : List String) :
    (∃ e, listIn path x = .error e ∧ listIn path y = .error e) ∨
      ∃ l m, listIn path x = .ok l ∧ listIn path y = .ok m := by
  rcases h with rfl | ⟨l, more, before, rfl⟩
  · cases listIn path y with
    | error e => exact .inl ⟨e, rfl, rfl⟩
    | ok l => exact .inr ⟨l, l, rfl, rfl⟩
  · exact .inr ⟨l, l ++ more, (listIn_eq_ok_iff path).mpr before, rfl⟩

end Section

namespace Spec

open Section

variable {s t : Spec} {path ks above : List String} {k : String} {ms ns : List (String × Json)}
  {e : ConfigError}

/-! ### Two specifications with a like way -/

/-- Along a path the sections of one specification may have come from those of another. -/
def WayGrows (s t : Spec) (path : List String) : Prop :=
  ∀ q ∈ path.inits, Growth.object.Allows (s.value? q) (t.value? q)

theorem WayGrows.head (h : WayGrows ⟨ms⟩ ⟨ns⟩ (k :: ks)) :
    Growth.object.Allows (Members.get? k ms) (Members.get? k ns) := by
  have here := h [k] (by simp)
  rwa [value?, value?, toJson, toJson, value?_singleton, value?_singleton] at here

theorem WayGrows.tail {inner inner' : List (String × Json)} (h : WayGrows ⟨ms⟩ ⟨ns⟩ (k :: ks))
    (left : members? (Members.get? k ms) = some inner) (right : members? (Members.get? k ns) = some inner') :
    WayGrows ⟨inner⟩ ⟨inner'⟩ ks := by
  intro q mem
  cases q with
  | nil => exact .inr ⟨inner, inner', rfl, rfl⟩
  | cons k' q =>
      have further := List.cons_ne_nil k' q
      rw [← value?_of_members? left further, ← value?_of_members? right further]
      exact h _ (by simpa using mem)

theorem updateObjectFrom_outcome_congr {f : List (String × Json) → List (String × Json)}
    (way : WayGrows ⟨ms⟩ ⟨ns⟩ path) :
    (updateObjectFrom f above path ns).1 = (updateObjectFrom f above path ms).1 := by
  induction path generalizing above ms ns with
  | nil => rfl
  | cons k ks ih =>
      rw [updateObjectFrom, updateObjectFrom]
      rcases objectIn_of_allows way.head (above ++ [k]) with ⟨e, left, right⟩ | ⟨inner, inner', left, right⟩
      · rw [left, right]
      · rw [left, right]
        exact ih (way.tail (members?_of_objectIn left) (members?_of_objectIn right))

theorem updateListFrom_outcome_congr {f : List Json → List Json} (way : WayGrows ⟨ms⟩ ⟨ns⟩ path.dropLast)
    (items : Growth.list.Allows (value? ⟨ms⟩ path) (value? ⟨ns⟩ path)) :
    (updateListFrom f above path ns).1 = (updateListFrom f above path ms).1 := by
  induction path generalizing above ms ns with
  | nil => rfl
  | cons k ks ih =>
      cases ks with
      | nil =>
          have here : Growth.list.Allows (Members.get? k ms) (Members.get? k ns) := by
            rwa [value?, value?, toJson, toJson, value?_singleton, value?_singleton] at items
          rw [updateListFrom, updateListFrom]
          rcases listIn_of_allows here (above ++ [k]) with ⟨e, left, right⟩ | ⟨l, m, left, right⟩ <;>
            rw [left, right]
      | cons k' ks =>
          have further := List.cons_ne_nil k' ks
          rw [Spec.updateListFrom_cons f above k further, Spec.updateListFrom_cons f above k further]
          rcases objectIn_of_allows way.head (above ++ [k]) with ⟨e, left, right⟩ | ⟨inner, inner', left, right⟩
          · rw [left, right]
          · have found := members?_of_objectIn left
            have found' := members?_of_objectIn right
            rw [left, right]
            refine ih (way.tail found found') ?_
            rwa [← value?_of_members? found further, ← value?_of_members? found' further]

theorem Grows.way (h : Grows s t) (objects : ∀ q ∈ path.inits, growth q = .object) : WayGrows s t path := by
  intro q mem
  have allowed := h q
  rwa [objects q mem] at allowed

theorem Grows.append_outcome (h : Grows s t) (items : growth path = .list)
    (objects : ∀ q ∈ path.dropLast.inits, growth q = .object) (item : Json) :
    (t.append path item).1 = (s.append path item).1 := by
  have allowed := h path
  rw [items] at allowed
  exact updateListFrom_outcome_congr (h.way objects) allowed

theorem Grows.checkList (h : Grows s t) (items : growth path = .list)
    (objects : ∀ q ∈ path.dropLast.inits, growth q = .object) : t.checkList path = s.checkList path := by
  have outcome (u : Spec) : (u.append path .null).1 = u.checkList path :=
    updateListFrom_outcome _ [] path u.members
  rw [← outcome, ← outcome]
  exact h.append_outcome items objects .null

theorem Grows.put_outcome (h : Grows s t) (objects : ∀ q ∈ path.inits, growth q = .object) (name : String)
    (v : Json) : (t.put path name v).1 = (s.put path name v).1 :=
  updateObjectFrom_outcome_congr (h.way objects)

/-! ### Steps -/

theorem append_of_error {item : Json} (failed : (s.append path item).1 = .error e) : (s.append path item).2 = s :=
  congrArg Spec.mk (updateListFrom_of_error failed)

theorem put_of_error {name : String} {v : Json} (failed : (s.put path name v).1 = .error e) :
    (s.put path name v).2 = s :=
  congrArg Spec.mk (updateObjectFrom_of_error failed)

/-- A device is added to both lists if both are fit, and to none otherwise. -/
theorem addDevice_cases (s : Spec) (d : Device) :
    let checks := s.checkList ["linux", "devices"] >>= fun _ => s.checkList ["linux", "resources", "devices"]
    (s.addDevice d).1 = checks ∧ ∀ e, checks = .error e → (s.addDevice d).2 = s := by
  have further {k : String} {ks : List String} : k :: ks ≠ [] := List.cons_ne_nil k ks
  cases devices : s.checkList ["linux", "devices"] with
  | error e => simp [addDevice, andThen, devices, bind, Except.bind]
  | ok _ =>
      cases rules : s.checkList ["linux", "resources", "devices"] with
      | error e => simp [addDevice, andThen, devices, rules, bind, Except.bind]
      | ok _ =>
          have fits : (Step.addDevice d).Fits s :=
            ⟨(checkList_eq_ok_iff further).mp devices, (checkList_eq_ok_iff further).mp rules⟩
          exact ⟨apply_eq_ok_iff.mpr fits, fun e failed => by cases failed⟩

/-- A capability is added if the list of the instance is fit. The sets of the process are
never in the way. -/
theorem addCapability_cases (s : Spec) (name : String) :
    let checks := s.checkList ["linux", "capabilities"]
    (s.addCapability name).1 = checks ∧ ∀ e, checks = .error e → (s.addCapability name).2 = s := by
  have outcome : (s.update (updateList ["linux", "capabilities"] (pushUnique name))).1 =
      s.checkList ["linux", "capabilities"] :=
    updateListFrom_outcome (pushUnique name) [] ["linux", "capabilities"] s.members
  unfold addCapability
  cases run : s.update (updateList ["linux", "capabilities"] (pushUnique name)) with
  | mk checks t =>
      rw [run] at outcome
      rw [← outcome]
      cases checks with
      | ok _ => exact ⟨rfl, fun e failed => by cases failed⟩
      | error e =>
          have failed : (updateListFrom (pushUnique name) [] ["linux", "capabilities"] s.members).1 = .error e :=
            congrArg Prod.fst run
          have unchanged : t = s :=
            (congrArg Prod.snd run).symm.trans (congrArg Spec.mk (updateListFrom_of_error failed))
          exact ⟨rfl, fun _ _ => unchanged⟩

theorem apply_eq_of_ok {step : Step} (ok : (step.apply s).1 = .ok ()) : step.apply s = (.ok (), (step.apply s).2) :=
  Prod.ext ok rfl

theorem apply_of_error {step : Step} (failed : (step.apply s).1 = .error e) : (step.apply s).2 = s := by
  cases step with
  | pushArg | pushEnv | pushEnvEntry | addUidMapping | addGidMapping | addMount | addHook =>
      exact append_of_error failed
  | setUser | setCwd | setMemoryLimit => exact put_of_error failed
  | setHostname => cases failed
  | addCapability name =>
      obtain ⟨outcome, unchanged⟩ := addCapability_cases s name
      exact unchanged e (outcome.symm.trans failed)
  | addDevice d =>
      obtain ⟨outcome, unchanged⟩ := addDevice_cases s d
      exact unchanged e (outcome.symm.trans failed)

/-- What a step comes to is the same on a specification that has come from another one. -/
theorem Grows.outcome (h : Grows s t) (step : Step) : (step.apply t).1 = (step.apply s).1 := by
  cases step with
  | pushArg | pushEnv | pushEnvEntry | addUidMapping | addGidMapping | addMount | addHook =>
      exact h.append_outcome rfl (by simp [growth]) _
  | setUser | setCwd | setMemoryLimit => exact h.put_outcome (by simp [growth]) _ _
  | setHostname => rfl
  | addCapability name =>
      have list : t.checkList ["linux", "capabilities"] = s.checkList ["linux", "capabilities"] :=
        h.checkList rfl (by simp [growth])
      exact ((addCapability_cases t name).1.trans list).trans (addCapability_cases s name).1.symm
  | addDevice d =>
      have devices : t.checkList ["linux", "devices"] = s.checkList ["linux", "devices"] :=
        h.checkList rfl (by simp [growth])
      have rules : t.checkList ["linux", "resources", "devices"] = s.checkList ["linux", "resources", "devices"] :=
        h.checkList rfl (by simp [growth])
      obtain ⟨before, -⟩ := addDevice_cases s d
      obtain ⟨after, -⟩ := addDevice_cases t d
      rw [devices, rules] at after
      exact after.trans before.symm

/-- Steps that fail may as well be left out. -/
theorem run_of_runEach (s : Spec) (steps : List Step) :
    s.run (steps.filter fun step => (step.apply s).1.isOk) = (.ok (), (s.runEach steps).2) := by
  induction steps generalizing s with
  | nil => rfl
  | cons step steps ih =>
      have later := ih (step.apply s).2
      simp only [(grows_apply s step).outcome] at later
      cases outcome : (step.apply s).1 with
      | error e =>
          rw [apply_of_error outcome] at later
          simp only [List.filter_cons, outcome, Except.isOk, Except.toBool, runEach, apply_of_error outcome]
          exact later
      | ok _ =>
          simp only [List.filter_cons, outcome, Except.isOk, Except.toBool, if_true, run]
          rw [apply_eq_of_ok outcome]
          exact later

/-- A step that fails changes nothing: no section is made, no null replaced, and of a
device neither the node nor the rule is added. So in a run the steps that fail may as well
be left out. -/
theorem failed_steps_change_nothing (s : Spec) :
    (∀ (step : Step) (e : ConfigError), (step.apply s).1 = .error e → (step.apply s).2 = s) ∧
    ∀ steps : List Step,
      s.run (steps.filter fun step => (step.apply s).1.isOk) = (.ok (), (s.runEach steps).2) :=
  ⟨fun _ _ failed => apply_of_error failed, run_of_runEach s⟩

/-- Where the rules are no list a device is not added, and the list of nodes is not made
in place of the null there. -/
theorem failed_steps_change_nothing_sample :
    let s : Spec := ⟨[("linux", .obj [("devices", .null), ("resources", .obj [("devices", .obj [])])])]⟩
    let step := Step.addDevice ⟨.ofString "/dev/null", .character, 1, 3⟩
    (step.apply s).1 = .error (.sectionShape ["linux", "resources", "devices"] .list "an object") ∧
      (step.apply s).2 = s := by
  intro s step
  have failed : (step.apply s).1 = .error (.sectionShape ["linux", "resources", "devices"] .list "an object") := by
    decide +kernel
  exact ⟨failed, (failed_steps_change_nothing s).1 step _ failed⟩

/-- What a step comes to is settled by the template. After any steps, failed ones among
them, it succeeds exactly if it would on the template, and otherwise its error is the very
same. -/
theorem outcome_settled_by_template (s : Spec) (steps : List Step) (step : Step) :
    (step.apply (s.runEach steps).2).1 = (step.apply s).1 :=
  (grows_runEach s steps).outcome step

end Spec

end Sandbox
