import Mathlib.Data.List.Infix
import Sandbox.Proofs.Spec.Update

/-!
Steps only add.

What steps may do to the value at a path is laid down in one table (`Spec.growth`): a
list grows at its end, a section that is missing is made, four values are replaced, and
nothing else is touched. A step keeps to the table whether it fails or not
(`Spec.grows_apply`), and so does every run of steps (`Spec.steps_only_add`). A step
that fails leaves behind the sections that it made on the way (`Section.Reaches`).
-/

namespace Sandbox

/-- What may happen to a value. -/
inductive Growth where
  /-- Nothing. -/
  | same
  /-- Whatever one likes. -/
  | any
  /-- A list gets more items at its end. It is made where nothing, or null, stands. -/
  | list
  /-- The same, but the list is not made. -/
  | givenList
  /-- An object gets other members. It is made where nothing, or null, stands. -/
  | object
  /-- The same, but the object is not made. -/
  | givenObject
  deriving DecidableEq, Repr

namespace Growth

open Section

/-- The second value may have come from the first. -/
def Allows : Growth → Option Json → Option Json → Prop
  | same, x, y => y = x
  | any, _, _ => True
  | list, x, y => y = x ∨ ∃ l more, items? x = some l ∧ y = some (.arr (l ++ more))
  | givenList, x, y => y = x ∨ ∃ l more, x = some (.arr l) ∧ y = some (.arr (l ++ more))
  | object, x, y => y = x ∨ ∃ ms ns, members? x = some ms ∧ y = some (.obj ns)
  | givenObject, x, y => y = x ∨ ∃ ms ns, x = some (.obj ms) ∧ y = some (.obj ns)

variable {g : Growth} {x y z : Option Json}

theorem Allows.of_eq (h : y = x) : g.Allows x y := by
  cases g with
  | same => exact h
  | any => trivial
  | list | givenList | object | givenObject => exact .inl h

theorem Allows.refl (g : Growth) (x : Option Json) : g.Allows x x :=
  .of_eq rfl

theorem Allows.trans (h : g.Allows x y) (h' : g.Allows y z) : g.Allows x z := by
  cases g with
  | same => exact Eq.trans h' h
  | any => trivial
  | list =>
      rcases h' with rfl | ⟨l', more', items, rfl⟩
      · exact h
      rcases h with rfl | ⟨l, more, before, rfl⟩
      · exact .inr ⟨l', more', items, rfl⟩
      · cases items
        exact .inr ⟨l, more ++ more', before, by rw [List.append_assoc]⟩
  | givenList =>
      rcases h' with rfl | ⟨l', more', items, rfl⟩
      · exact h
      rcases h with rfl | ⟨l, more, before, rfl⟩
      · exact .inr ⟨l', more', items, rfl⟩
      · cases items
        exact .inr ⟨l, more ++ more', before, by rw [List.append_assoc]⟩
  | object =>
      rcases h' with rfl | ⟨ms', ns', members, rfl⟩
      · exact h
      rcases h with rfl | ⟨ms, ns, before, rfl⟩
      · exact .inr ⟨ms', ns', members, rfl⟩
      · exact .inr ⟨ms, ns', before, rfl⟩
  | givenObject =>
      rcases h' with rfl | ⟨ms', ns', members, rfl⟩
      · exact h
      rcases h with rfl | ⟨ms, ns, before, rfl⟩
      · exact .inr ⟨ms', ns', members, rfl⟩
      · exact .inr ⟨ms, ns', before, rfl⟩

/-- The items of a list stay at its beginning. -/
theorem Allows.items (h : g.Allows x y) (kind : g ∈ [list, givenList]) {l : List Json}
    (there : x = some (.arr l)) : ∃ more, y = some (.arr (l ++ more)) := by
  subst there
  simp only [List.mem_cons, List.not_mem_nil, or_false] at kind
  rcases kind with rfl | rfl
  · rcases h with rfl | ⟨_, more, found, rfl⟩
    · exact ⟨[], by rw [List.append_nil]⟩
    · cases found
      exact ⟨more, rfl⟩
  · rcases h with rfl | ⟨_, more, found, rfl⟩
    · exact ⟨[], by rw [List.append_nil]⟩
    · cases found
      exact ⟨more, rfl⟩

end Growth

/-- What comes before the end of a path. -/
theorem mem_inits_dropLast {q path : List String} (before : q <+: path) (ne : q ≠ path) :
    q ∈ path.dropLast.inits := by
  rw [List.mem_inits]
  obtain ⟨rest, rfl⟩ := before
  rw [List.dropLast_append_of_ne_nil (by rintro rfl; simp at ne)]
  exact List.prefix_append q _

namespace Json

/-- Names lead nowhere from a list, nor from what can become one. -/
theorem value?_of_items? {x : Option Json} {l : List Json} (found : Section.items? x = some l) (k : String)
    (ks : List String) : x.bind (value? (k :: ks)) = none := by
  unfold Section.items? at found
  split at found <;> cases found <;> rfl

end Json

namespace Section

variable {change : Option Json → Option Json} {path above : List String} {ms ms' : List (String × Json)}

/-- A value is put at the end of a path, or the way there ends before. The sections
that were passed are objects afterwards. -/
inductive Reaches (change : Option Json → Option Json) :
    List String → List (String × Json) → List (String × Json) → Prop where
  | stop {path : List String} (ms : List (String × Json)) : Reaches change path ms ms
  | here {k : String} {ms : List (String × Json)} {v : Json} :
      change (Members.get? k ms) = some v → Reaches change [k] ms (Members.set k v ms)
  | inside {k : String} {ks : List String} {ms inner inner' : List (String × Json)} :
      ks ≠ [] → members? (Members.get? k ms) = some inner → Reaches change ks inner inner' →
      Reaches change (k :: ks) ms (Members.set k (.obj inner') ms)

theorem reaches_updateListFrom (f : List Json → List Json) (above path : List String)
    (ms : List (String × Json)) :
    Reaches (relist f) path ms (updateListFrom f above path ms).2 := by
  induction path generalizing above ms with
  | nil => exact .stop ms
  | cons k ks ih =>
      cases ks with
      | nil =>
          rw [updateListFrom]
          split
          · exact .stop ms
          · next items found => exact .here (by rw [relist, items?_of_listIn found]; rfl)
      | cons k' ks =>
          rw [updateListFrom]
          · split
            · exact .stop ms
            · next inner found =>
                exact .inside (List.cons_ne_nil _ _) (members?_of_objectIn found) (ih (above ++ [k]) inner)
          · exact List.cons_ne_nil _ _

theorem reaches_updateObjectFrom (name : String) (v : Json) (above path : List String)
    (ms : List (String × Json)) :
    Reaches (fun _ => some v) (path ++ [name]) ms (updateObjectFrom (Members.set name v) above path ms).2 := by
  induction path generalizing above ms with
  | nil => exact .here rfl
  | cons k ks ih =>
      rw [updateObjectFrom]
      split
      · exact .stop ms
      · next inner found =>
          exact .inside (List.append_ne_nil_of_right_ne_nil _ (List.cons_ne_nil _ _))
            (members?_of_objectIn found) (ih (above ++ [k]) inner)

/-- What is seen at a path after a value was put somewhere, or was not: the value and
what is below it, a section on the way to it, or what was there before. -/
theorem Reaches.value? (h : Reaches change path ms ms') (q : List String) :
    Json.value? q (.obj ms') = Json.value? q (.obj ms) ∨
    (q <+: path ∧ q ≠ path ∧ Growth.object.Allows (Json.value? q (.obj ms)) (Json.value? q (.obj ms'))) ∨
    (∃ rest v, q = path ++ rest ∧ change (Json.value? path (.obj ms)) = some v ∧
      Json.value? q (.obj ms') = v.value? rest) := by
  induction h generalizing q with
  | stop ms => exact .inl rfl
  | @here k ms v made =>
      cases q with
      | nil => exact .inr (.inl ⟨List.nil_prefix, (List.cons_ne_nil _ _).symm, .inr ⟨_, _, rfl, rfl⟩⟩)
      | cons k' q =>
          by_cases same : k' = k
          · subst same
            exact .inr (.inr ⟨q, v, rfl, by rw [value?_singleton, made], value?_set_self k' q v ms⟩)
          · exact .inl (value?_set_of_ne same q v ms)
  | @inside k ks ms inner inner' further found h ih =>
      cases q with
      | nil => exact .inr (.inl ⟨List.nil_prefix, (List.cons_ne_nil _ _).symm, .inr ⟨_, _, rfl, rfl⟩⟩)
      | cons k' q =>
          by_cases same : k' = k
          · subst same
            have below {q : List String} (ne : q ≠ []) :
                Json.value? (k' :: q) (.obj ms) = Json.value? q (.obj inner) := by
              cases q with
              | nil => exact absurd rfl ne
              | cons k'' q => exact bind_value?_of_members? found k'' q
            rw [value?_set_self]
            cases q with
            | nil =>
                refine .inr (.inl ⟨by simp, fun e => further (List.cons.inj e).2.symm, ?_⟩)
                exact .inr ⟨inner, inner', by rw [value?_singleton, found], rfl⟩
            | cons k'' q =>
                rw [below (List.cons_ne_nil _ _), below further]
                refine (ih (k'' :: q)).imp_right (Or.imp ?_ ?_)
                · rintro ⟨before, ne, allowed⟩
                  exact ⟨List.cons_prefix_cons.mpr ⟨rfl, before⟩, fun e => ne (List.cons.inj e).2, allowed⟩
                · rintro ⟨rest, v, split, made, after⟩
                  exact ⟨rest, v, congrArg (k' :: ·) split, made, after⟩
          · exact .inl (value?_set_of_ne same q (.obj inner') ms)

end Section

namespace Spec

open Section

variable {s : Spec} {step : Step} {place : List String}

/-- What steps may do to the value at a path. -/
def growth : List String → Growth
  | [] | ["process"] | ["linux"] | ["linux", "resources"] | ["linux", "resources", "memory"] | ["hooks"] =>
    .object
  | ["process", "capabilities"] => .givenObject
  | ["process", "capabilities", _] => .givenList
  | ["process", "args"] | ["process", "env"] | ["mounts"] | ["hooks", _] | ["linux", "capabilities"] |
    ["linux", "devices"] | ["linux", "resources", "devices"] | ["linux", "uidMappings"] |
    ["linux", "gidMappings"] => .list
  | "process" :: "user" :: _ | "process" :: "cwd" :: _ | "hostname" :: _ |
    "linux" :: "resources" :: "memory" :: "limit" :: _ => .any
  | _ => .same

/-- The second specification may have come from the first. -/
def Grows (s t : Spec) : Prop :=
  ∀ path, (growth path).Allows (s.value? path) (t.value? path)

theorem Grows.refl (s : Spec) : Grows s s :=
  fun path => .refl (growth path) _

theorem Grows.trans {s t u : Spec} (h : Grows s t) (h' : Grows t u) : Grows s u :=
  fun path => (h path).trans (h' path)

/-- A list grows at the end of the way, whether the way is there or not. -/
theorem grows_updateList {f : List Json → List Json} (adds : ∀ l, ∃ more, f l = l ++ more)
    (items : growth place = .list) (way : ∀ q ∈ place.dropLast.inits, growth q = .object) :
    Grows s ⟨(Section.updateList place f s.members).2⟩ := by
  intro q
  rcases (reaches_updateListFrom f [] place s.members).value? q with
    unchanged | ⟨before, ne, allowed⟩ | ⟨rest, v, rfl, made, after⟩
  · exact .of_eq unchanged
  · rw [way q (mem_inits_dropLast before ne)]
    exact allowed
  · obtain ⟨l, found, rfl⟩ := Option.map_eq_some_iff.mp made
    cases rest with
    | nil =>
        obtain ⟨more, longer⟩ := adds l
        rw [List.append_nil] at after ⊢
        rw [items]
        exact .inr ⟨l, more, found, by rw [← longer]; exact after⟩
    | cons k rest =>
        -- Names lead nowhere below a list, nor below what a list takes the place of.
        refine .of_eq (after.trans ?_)
        rw [value?, toJson, Json.value?_append]
        exact (Json.value?_of_items? found k rest).symm

/-- A value is put at the end of the way, whether the way is there or not. -/
theorem grows_put {name : String} (free : ∀ rest, growth (place ++ [name] ++ rest) = .any)
    (way : ∀ q ∈ place.inits, growth q = .object) (v : Json) : Grows s (s.put place name v).2 := by
  intro q
  have run : Reaches (fun _ => some v) (place ++ [name]) s.members (s.put place name v).2.members :=
    reaches_updateObjectFrom name v [] place s.members
  rcases run.value? q with unchanged | ⟨before, ne, allowed⟩ | ⟨rest, _, rfl, -, -⟩
  · exact .of_eq unchanged
  · have inside := mem_inits_dropLast before ne
    rw [List.dropLast_concat] at inside
    rw [way q inside]
    exact allowed
  · rw [free rest]
    trivial

theorem grows_append (items : growth place = .list) (way : ∀ q ∈ place.dropLast.inits, growth q = .object)
    (item : Json) : Grows s (s.append place item).2 :=
  grows_updateList (fun _ => ⟨[item], rfl⟩) items way

theorem grows_andThen {r : Except ConfigError Unit × Spec} {next : Spec → Except ConfigError Unit × Spec}
    (first : Grows s r.2) (rest : ∀ t, r = (.ok (), t) → Grows t (next t).2) : Grows s (andThen r next).2 := by
  obtain ⟨outcome, t⟩ := r
  cases outcome with
  | error e => exact first
  | ok _ => exact first.trans (rest t rfl)

theorem pushUnique_adds (name : String) (l : List Json) : ∃ more, pushUnique name l = l ++ more := by
  unfold pushUnique
  split
  · exact ⟨[], (List.append_nil l).symm⟩
  · exact ⟨[.str name], rfl⟩

/-- A set of capabilities grows, and is not made. -/
theorem givenList_allows_pushUniqueInto (name : String) (x : Option Json) :
    Growth.givenList.Allows x (x.map (pushUniqueInto name)) := by
  cases x with
  | none => exact .inl rfl
  | some j =>
      cases j with
      | arr l =>
          obtain ⟨more, longer⟩ := pushUnique_adds name l
          exact .inr ⟨l, more, rfl, by rw [← longer]; rfl⟩
      | _ => exact .inl rfl

/-- The sets of capabilities grow, and nothing else does. -/
theorem grows_pushIntoSets (name : String) (s : Spec) : Grows s ⟨pushIntoSets name s.members⟩ := by
  obtain ⟨ms⟩ := s
  intro q
  unfold pushIntoSets
  split
  case h_2 => exact .refl _ _
  case h_1 process found =>
  split
  case h_2 => exact .refl _ _
  case h_1 sets inProcess =>
  have processThere : Json.value? ["process"] (.obj ms) = some (.obj process) := by
    rw [value?_singleton, found]
  have setsThere : Json.value? ["capabilities"] (.obj process) = some (.obj sets) := by
    rw [value?_singleton, inProcess]
  cases q with
  | nil => exact .inr ⟨_, _, rfl, rfl⟩
  | cons k q =>
  by_cases first : k = "process"
  case neg => exact .of_eq (value?_set_of_ne first q _ ms)
  subst first
  simp only [value?, toJson, value?_set_self, Json.value?_cons_of_value?_singleton processThere]
  cases q with
  | nil => exact .inr ⟨_, _, rfl, rfl⟩
  | cons k q =>
  by_cases second : k = "capabilities"
  case neg => exact .of_eq (value?_set_of_ne second q _ process)
  subst second
  rw [value?_set_self, Json.value?_cons_of_value?_singleton setsThere]
  cases q with
  | nil => exact .inr ⟨_, _, rfl, rfl⟩
  | cons k q =>
  simp only [Json.value?, Json.member?, Json.obj?, Option.bind_some, Members.get?_map]
  cases q with
  | nil =>
      rw [show growth ["process", "capabilities", k] = .givenList from rfl]
      simpa [Json.value?] using givenList_allows_pushUniqueInto name (Members.get? k sets)
  | cons k' q =>
      -- Below a set there is nothing, before and after.
      refine .of_eq ?_
      cases Members.get? k sets with
      | none => rfl
      | some j => cases j <;> rfl

/-- A step does what the table says, whether it fails or not. -/
theorem grows_apply (s : Spec) (step : Step) : Grows s (step.apply s).2 := by
  cases step with
  | pushArg | pushEnv | pushEnvEntry | addUidMapping | addGidMapping | addMount | addHook =>
      exact grows_append rfl (by simp [growth]) _
  | setUser | setCwd | setMemoryLimit => exact grows_put (fun _ => rfl) (by simp [growth]) _
  | setHostname hostname =>
      have put : Grows s (s.put [] "hostname" (.str hostname)).2 :=
        grows_put (fun _ => rfl) (by simp [growth]) _
      exact put
  | addCapability name =>
      have first : Grows s ⟨(updateList ["linux", "capabilities"] (pushUnique name) s.members).2⟩ :=
        grows_updateList (pushUnique_adds name) rfl (by simp [growth])
      exact grows_andThen first fun t _ => grows_pushIntoSets name t
  | addDevice d =>
      refine grows_andThen (.refl s) fun t same => ?_
      refine grows_andThen (.refl t) fun u same => ?_
      refine grows_andThen (grows_append rfl (by simp [growth]) _) fun v _ => ?_
      exact grows_append rfl (by simp [growth]) _

theorem grows_runEach (s : Spec) (steps : List Step) : Grows s (s.runEach steps).2 := by
  induction steps generalizing s with
  | nil => exact .refl s
  | cons step steps ih => exact (grows_apply s step).trans (ih _)

theorem grows_run (s : Spec) (steps : List Step) : Grows s (s.run steps).2 := by
  induction steps generalizing s with
  | nil => exact .refl s
  | cons step steps ih => exact grows_andThen (grows_apply s step) fun t _ => ih t

/-- Steps only add. Whatever steps are run on a template, and whether they fail or not,
every value is afterwards what the table allows it to be, and a list that steps append
to begins with the items that the template has there. -/
theorem steps_only_add (s : Spec) (steps : List Step) (path : List String) :
    let t := (s.runEach steps).2
    (growth path).Allows (s.value? path) (t.value? path) ∧
      ∀ l, growth path ∈ [.list, .givenList] → s.value? path = some (.arr l) →
        ∃ more, t.value? path = some (.arr (l ++ more)) := by
  intro t
  have allowed := grows_runEach s steps path
  refine ⟨allowed, ?_⟩
  intro l kind there
  exact allowed.items kind there

end Spec

end Sandbox
