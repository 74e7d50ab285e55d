import Sandbox.Spec.Basic

/-!
What a step does to a document.

A step puts a value at the end of a path, through sections that are made where they
are missing (`Section.Updates`, `Spec.Step.updates`). From there it is seen at once
what the step leaves alone. Two steps are more than that: one writes to two paths, and
one also adds to the sets of capabilities (`Spec.pushIntoSets`).
-/

namespace Sandbox

namespace Members

variable {α β : Type} {name : String} {ms : List (String × α)}

theorem get?_map (f : α → β) (name : String) (ms : List (String × α)) :
    get? name (ms.map fun (k, a) => (k, f a)) = (get? name ms).map f := by
  induction ms with
  | nil => rfl
  | cons m r ih =>
      obtain ⟨k, a⟩ := m
      rw [List.map_cons, get?_cons, get?_cons, ih]
      split <;> rfl

end Members

/-- Neither of two paths leads through where the other ends. -/
def Apart (p q : List String) : Prop :=
  ¬ p <+: q ∧ ¬ q <+: p

namespace Apart

variable {k k' : String} {p q : List String}

theorem symm (h : Apart p q) : Apart q p :=
  And.symm h

@[simp] theorem nil_left : ¬ Apart [] q :=
  fun h => h.1 List.nil_prefix

@[simp] theorem nil_right : ¬ Apart p [] :=
  fun h => h.2 List.nil_prefix

@[simp] theorem cons_iff : Apart (k :: p) (k' :: q) ↔ (k = k' → Apart p q) := by
  unfold Apart
  by_cases same : k = k'
  · simp [List.cons_prefix_cons, same]
  · simp [List.cons_prefix_cons, same, Ne.symm same]

end Apart

namespace Json

/-- The value that names lead to, from one object to the next. -/
def value? : List String → Json → Option Json
  | [], j => some j
  | k :: ks, j => (j.member? k).bind (value? ks)

theorem value?_append (p q : List String) (j : Json) : j.value? (p ++ q) = (j.value? p).bind (value? q) := by
  induction p generalizing j with
  | nil => rfl
  | cons k p ih =>
      rw [List.cons_append, value?, value?, Option.bind_assoc]
      congr 1
      funext j
      exact ih j

theorem value?_cons_of_value?_singleton {j v : Json} {k : String} (found : j.value? [k] = some v)
    (ks : List String) : j.value? (k :: ks) = v.value? ks := by
  rw [← List.singleton_append, value?_append, found]
  rfl

theorem object_of_value? {j v : Json} {k k' : String} {ks : List String}
    (found : j.value? (k :: k' :: ks) = some v) : ∃ ms, j.value? [k] = some (.obj ms) := by
  obtain ⟨inner, member, rest⟩ := Option.bind_eq_some_iff.mp found
  obtain ⟨_, deeper, -⟩ := Option.bind_eq_some_iff.mp rest
  cases inner with
  | obj ms => exact ⟨ms, by rw [value?, member]; rfl⟩
  | _ => cases deeper

end Json

namespace Section

/-- The members of a section, if what stands in its place can be one. -/
def members? : Option Json → Option (List (String × Json))
  | none | some .null => some []
  | some (.obj ms) => some ms
  | some _ => none

/-- The items of a list section, if what stands in its place can be one. -/
def items? : Option Json → Option (List Json)
  | none | some .null => some []
  | some (.arr l) => some l
  | some _ => none

theorem members?_of_objectIn {path : List String} {x : Option Json} {ms : List (String × Json)}
    (ok : objectIn path x = .ok ms) : members? x = some ms := by
  unfold objectIn at ok
  split at ok <;> cases ok <;> rfl

theorem items?_of_listIn {path : List String} {x : Option Json} {l : List Json}
    (ok : listIn path x = .ok l) : items? x = some l := by
  unfold listIn at ok
  split at ok <;> cases ok <;> rfl

/-- What is below a section is found by way of its members. -/
theorem bind_value?_of_members? {x : Option Json} {ms : List (String × Json)} (found : members? x = some ms)
    (k : String) (ks : List String) :
    x.bind (Json.value? (k :: ks)) = (Members.get? k ms).bind (Json.value? ks) := by
  unfold members? at found
  split at found <;> cases found <;> rfl

theorem value?_singleton (k : String) (ms : List (String × Json)) :
    Json.value? [k] (.obj ms) = Members.get? k ms := by
  simp [Json.value?, Json.member?, Json.obj?]

theorem value?_set_self (k : String) (ks : List String) (v : Json) (ms : List (String × Json)) :
    Json.value? (k :: ks) (.obj (Members.set k v ms)) = v.value? ks := by
  simp [Json.value?, Json.member?, Json.obj?]

theorem value?_set_of_ne {k k' : String} (ne : k' ≠ k) (ks : List String) (v : Json)
    (ms : List (String × Json)) :
    Json.value? (k' :: ks) (.obj (Members.set k v ms)) = Json.value? (k' :: ks) (.obj ms) := by
  simp only [Json.value?, Json.member?, Json.obj?, Option.bind_some, Members.get?_set_of_ne ne]

/-- A value is put at the end of a path. `change` makes it from what stands there. -/
inductive Updates (change : Option Json → Option Json) :
    List String → List (String × Json) → List (String × Json) → Prop where
  | here {k : String} {ms : List (String × Json)} {v : Json} :
      change (Members.get? k ms) = some v → Updates change [k] ms (Members.set k v ms)
  | inside {k : String} {ks : List String} {ms inner inner' : List (String × Json)} :
      members? (Members.get? k ms) = some inner → Updates change ks inner inner' →
      Updates change (k :: ks) ms (Members.set k (.obj inner') ms)

/-- The change of a list. -/
def relist (f : List Json → List Json) (x : Option Json) : Option Json :=
  (items? x).map fun l => .arr (f l)

variable {change : Option Json → Option Json} {path above : List String} {k : String}
  {ms ms' ms'' : List (String × Json)}

theorem Updates.unique (h : Updates change path ms ms') (h' : Updates change path ms ms'') : ms' = ms'' := by
  induction h generalizing ms'' with
  | here made =>
      cases h' with
      | here made' => rw [Option.some.inj (made.symm.trans made')]
      | inside _ h' => cases h'
  | inside found h ih =>
      cases h' with
      | here => cases h
      | inside found' h' =>
          cases found.symm.trans found'
          rw [ih h']

/-- At the end of the path stands what the change makes of the value there. -/
theorem Updates.value? (h : Updates change path ms ms') :
    ∃ v, change (Json.value? path (.obj ms)) = some v ∧ Json.value? path (.obj ms') = some v := by
  induction h with
  | @here k ms v made => exact ⟨v, by rw [value?_singleton, made], value?_set_self k [] v ms⟩
  | @inside k ks ms inner inner' found h ih =>
      have before : Json.value? (k :: ks) (.obj ms) = Json.value? ks (.obj inner) := by
        cases ks with
        | nil => cases h
        | cons k' ks => exact bind_value?_of_members? found k' ks
      rwa [before, value?_set_self]

/-- Where the path does not lead by, nothing is changed. -/
theorem Updates.value?_of_apart (h : Updates change path ms ms') {q : List String} (apart : Apart q path) :
    Json.value? q (.obj ms') = Json.value? q (.obj ms) := by
  induction h generalizing q with
  | @here k ms v made =>
      cases q with
      | nil => simp at apart
      | cons k' q =>
          have ne : k' ≠ k := by simpa using apart
          exact value?_set_of_ne ne q v ms
  | @inside k ks ms inner inner' found h ih =>
      cases q with
      | nil => simp at apart
      | cons k' q =>
          by_cases same : k' = k
          · subst same
            have apart : Apart q ks := by simpa using apart
            have before : Json.value? (k' :: q) (.obj ms) = Json.value? q (.obj inner) := by
              cases q with
              | nil => simp at apart
              | cons k'' q => exact bind_value?_of_members? found k'' q
            rw [before, value?_set_self, ih apart]
          · exact value?_set_of_ne same q (.obj inner') ms

theorem updates_of_updateListFrom {f : List Json → List Json}
    (ok : updateListFrom f above path ms = (.ok (), ms')) : Updates (relist f) path ms ms' := by
  induction path generalizing above ms ms' with
  | nil => cases ok
  | cons k ks ih =>
      cases ks with
      | nil =>
          rw [updateListFrom] at ok
          split at ok
          · cases ok
          · next items found =>
              cases ok
              exact .here (by rw [relist, items?_of_listIn found]; rfl)
      | cons k' ks =>
          rw [updateListFrom] at ok
          · split at ok
            · cases ok
            · next inner found =>
                cases deeper : updateListFrom f (above ++ [k]) (k' :: ks) inner with
                | mk outcome inner' =>
                    dsimp only at ok
                    rw [deeper] at ok
                    cases ok
                    exact .inside (members?_of_objectIn found) (ih deeper)
          · exact List.cons_ne_nil _ _

/-- A value is put into an object section. -/
theorem updates_of_updateObjectFrom {name : String} {v : Json}
    (ok : updateObjectFrom (Members.set name v) above path ms = (.ok (), ms')) :
    Updates (fun _ => some v) (path ++ [name]) ms ms' := by
  induction path generalizing above ms ms' with
  | nil => cases ok; exact .here rfl
  | cons k ks ih =>
      rw [updateObjectFrom] at ok
      split at ok
      · cases ok
      · next inner found =>
          cases deeper : updateObjectFrom (Members.set name v) (above ++ [k]) ks inner with
          | mk outcome inner' =>
              dsimp only at ok
              rw [deeper] at ok
              cases ok
              exact .inside (members?_of_objectIn found) (ih deeper)

end Section

namespace Spec

open Section

variable {s s' s'' : Spec} {path : List String}

theorem updates_of_append {item : Json} (ok : s.append path item = (.ok (), s')) :
    Updates (relist (· ++ [item])) path s.members s'.members := by
  cases run : Section.updateList path (· ++ [item]) s.members with
  | mk outcome ms =>
      rw [append, update, run] at ok
      cases ok
      exact updates_of_updateListFrom run

theorem updates_of_put {name : String} {value : Json} (ok : s.put path name value = (.ok (), s')) :
    Updates (fun _ => some value) (path ++ [name]) s.members s'.members := by
  cases run : Section.updateObject path (Members.set name value) s.members with
  | mk outcome ms =>
      rw [put, update, run] at ok
      cases ok
      exact updates_of_updateObjectFrom run

theorem andThen_eq_ok {r : Except ConfigError Unit × Spec} {next : Spec → Except ConfigError Unit × Spec}
    (ok : andThen r next = (.ok (), s')) : ∃ s, r = (.ok (), s) ∧ next s = (.ok (), s') := by
  obtain ⟨outcome, s⟩ := r
  cases outcome with
  | error e => cases ok
  | ok _ => exact ⟨s, rfl, ok⟩

/-- The place that a step writes to, and what it makes of the value there. -/
def Step.write? : Step → Option (List String × (Option Json → Option Json))
  | pushArg arg => some (["process", "args"], relist (· ++ [.str arg]))
  | pushEnv key value => some (["process", "env"], relist (· ++ [.str (key ++ "=" ++ value)]))
  | pushEnvEntry entry => some (["process", "env"], relist (· ++ [.str entry]))
  | addUidMapping m => some (["linux", "uidMappings"], relist (· ++ [m.toJson]))
  | addGidMapping m => some (["linux", "gidMappings"], relist (· ++ [m.toJson]))
  | addMount m => some (["mounts"], relist (· ++ [m.toJson]))
  | addHook stage h => some (["hooks", stage], relist (· ++ [h.toJson]))
  | setUser u => some (["process", "user"], fun _ => some u.toJson)
  | setCwd cwd => some (["process", "cwd"], fun _ => some (.str cwd))
  | setHostname hostname => some (["hostname"], fun _ => some (.str hostname))
  | setMemoryLimit bytes =>
    some (["linux", "resources", "memory", "limit"], fun _ => some (.nat bytes.toNat))
  | addCapability _ | addDevice _ => none

theorem Step.updates {step : Step} {change : Option Json → Option Json}
    (ok : step.apply s = (.ok (), s')) (writes : step.write? = some (path, change)) :
    Updates change path s.members s'.members := by
  cases step with
  | pushArg | pushEnv | pushEnvEntry | addUidMapping | addGidMapping | addMount | addHook =>
      cases writes
      exact updates_of_append ok
  | setUser u =>
      cases writes
      have put : s.put ["process"] "user" u.toJson = (.ok (), s') := ok
      exact updates_of_put put
  | setCwd cwd =>
      cases writes
      have put : s.put ["process"] "cwd" (.str cwd) = (.ok (), s') := ok
      exact updates_of_put put
  | setMemoryLimit bytes =>
      cases writes
      have put : s.put ["linux", "resources", "memory"] "limit" (.nat bytes.toNat) = (.ok (), s') := ok
      exact updates_of_put put
  | setHostname =>
      cases writes
      cases ok
      exact .here rfl
  | addCapability | addDevice => cases writes

/-- The value that names lead to in a specification. -/
def value? (s : Spec) (path : List String) : Option Json :=
  s.toJson.value? path

/-- A capability is added to the list of the instance, and then to the sets. -/
theorem addCapability_eq_ok {name : String} (ok : s.addCapability name = (.ok (), s')) :
    ∃ ms, Updates (relist (pushUnique name)) ["linux", "capabilities"] s.members ms ∧
      s'.members = pushIntoSets name ms := by
  obtain ⟨s₁, first, rest⟩ := andThen_eq_ok ok
  cases run : Section.updateList ["linux", "capabilities"] (pushUnique name) s.members with
  | mk outcome ms =>
      rw [update, run] at first
      cases first
      cases rest
      exact ⟨ms, updates_of_updateListFrom run, rfl⟩

/-- Adding to the sets of capabilities leaves everything else alone. -/
theorem value?_pushIntoSets (name : String) (ms : List (String × Json)) {q : List String}
    (apart : Apart q ["process", "capabilities"]) :
    Json.value? q (.obj (pushIntoSets name ms)) = Json.value? q (.obj ms) := by
  unfold pushIntoSets
  split
  case h_2 => rfl
  case h_1 process found =>
  split
  case h_2 => rfl
  case h_1 sets _ =>
  have there : Json.value? ["process"] (.obj ms) = some (.obj process) := by rw [value?_singleton, found]
  cases q with
  | nil => simp at apart
  | cons k q =>
  by_cases first : k = "process"
  case neg => exact value?_set_of_ne first q _ ms
  subst first
  rw [value?_set_self, Json.value?_cons_of_value?_singleton there]
  cases q with
  | nil => simp at apart
  | cons k q =>
  have second : k ≠ "capabilities" := by
    rintro rfl
    simp at apart
  exact value?_set_of_ne second q _ process

/-- A device is added to the list of nodes, and then to that of the rules. -/
theorem addDevice_eq_ok {d : Device} (ok : s.addDevice d = (.ok (), s')) :
    ∃ s₁, s.append ["linux", "devices"] (DeviceEntry.ofDevice d).toJson = (.ok (), s₁) ∧
      s₁.append ["linux", "resources", "devices"] (DeviceRule.ofDevice d).toJson = (.ok (), s') := by
  obtain ⟨s₁, checked, rest⟩ := andThen_eq_ok ok
  cases (Prod.mk.inj checked).2
  obtain ⟨s₂, checked, rest⟩ := andThen_eq_ok rest
  cases (Prod.mk.inj checked).2
  exact andThen_eq_ok rest

theorem run_cons_eq_ok {step : Step} {steps : List Step} (ok : s.run (step :: steps) = (.ok (), s')) :
    ∃ s₁, step.apply s = (.ok (), s₁) ∧ s₁.run steps = (.ok (), s') :=
  andThen_eq_ok ok

theorem run_append {steps later : List Step} (ok : s.run (steps ++ later) = (.ok (), s')) :
    ∃ s₁, s.run steps = (.ok (), s₁) ∧ s₁.run later = (.ok (), s') := by
  induction steps generalizing s with
  | nil => exact ⟨s, rfl, ok⟩
  | cons step steps ih =>
      obtain ⟨s₁, first, rest⟩ := run_cons_eq_ok ok
      obtain ⟨s₂, before, after⟩ := ih rest
      exact ⟨s₂, by rw [run, first, andThen, before], after⟩

theorem run_append_of_ok {steps later : List Step} (first : s.run steps = (.ok (), s'))
    (rest : s'.run later = (.ok (), s'')) : s.run (steps ++ later) = (.ok (), s'') := by
  induction steps generalizing s with
  | nil => cases first; exact rest
  | cons step steps ih =>
      obtain ⟨s₁, here, there⟩ := run_cons_eq_ok first
      rw [List.cons_append, run, here]
      exact ih there

theorem runAll_eq_ok_iff {steps : List Step} : s.runAll steps = .ok s' ↔ s.run steps = (.ok (), s') := by
  unfold runAll
  constructor
  · intro ok
    split at ok
    · next run => cases ok; exact run
    · cases ok
  · intro run
    rw [run]

/-- Steps that write elsewhere leave a value alone. -/
theorem value?_of_run {steps : List Step} {q : List String} (ok : s.run steps = (.ok (), s'))
    (apart : ∀ step ∈ steps, ∃ path change, step.write? = some (path, change) ∧ Apart q path) :
    s'.value? q = s.value? q := by
  induction steps generalizing s with
  | nil => cases ok; rfl
  | cons step steps ih =>
      obtain ⟨s₁, first, rest⟩ := run_cons_eq_ok ok
      obtain ⟨path, change, writes, here⟩ := apart step List.mem_cons_self
      rw [ih rest fun step mem => apart step (List.mem_cons_of_mem _ mem)]
      exact (Step.updates first writes).value?_of_apart here

end Spec

end Sandbox
