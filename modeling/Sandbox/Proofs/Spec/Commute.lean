import Sandbox.Proofs.Spec.Outcome

/-!
Steps in either order.

What a step does to a document is a list of edits, each at a place of its own
(`Spec.Step.edits`). Two edits of which neither is on the way to the other close a
square: from the documents that they lead to, the other edit leads on to one and the same
(`Spec.Edit.swap`). Lists of such edits close it as well (`Spec.Edits.swap`).

Steps with different targets have only such edits, and what a step comes to does not
depend on the steps before it. So they may be taken in either order
(`Spec.steps_commute`).
-/

namespace Sandbox

namespace Section

variable {change change' : Option Json → Option Json} {p q ks ks' : List String} {k k' : String}
  {ms a b : List (String × Json)}

/-! ### Values put at paths -/

theorem Updates.exists_set (h : Updates change (k :: ks) ms a) : ∃ v, a = Members.set k v ms := by
  cases h with
  | here _ => exact ⟨_, rfl⟩
  | inside _ _ => exact ⟨_, rfl⟩

/-- A value under another name is of no matter. -/
theorem Updates.set_of_ne (h : Updates change (k :: ks) ms a) (ne : k' ≠ k) (w : Json) :
    Updates change (k :: ks) (Members.set k' w ms) (Members.set k' w a) := by
  have same : Members.get? k (Members.set k' w ms) = Members.get? k ms := Members.get?_set_of_ne ne.symm w ms
  cases h with
  | here made =>
      rw [Members.set_comm ne]
      exact .here (by rw [same, made])
  | inside found h =>
      rw [Members.set_comm ne]
      exact .inside (by rw [same, found]) h

/-- What is put among some members is put below the name that they stand under. -/
theorem Updates.under (h : Updates change ks a b) (k : String) (ms : List (String × Json)) :
    Updates change (k :: ks) (Members.set k (.obj a) ms) (Members.set k (.obj b) ms) := by
  rw [← Members.set_set k (Json.obj b) (Json.obj a)]
  refine .inside ?_ h
  rw [Members.get?_set_self]
  rfl

/-- Values put below different names close a square. -/
theorem Updates.swap_of_ne (h : Updates change (k :: ks) ms a) (h' : Updates change' (k' :: ks') ms b)
    (ne : k ≠ k') : ∃ c, Updates change' (k' :: ks') a c ∧ Updates change (k :: ks) b c := by
  obtain ⟨v, rfl⟩ := h.exists_set
  obtain ⟨w, rfl⟩ := h'.exists_set
  refine ⟨Members.set k v (Members.set k' w ms), h'.set_of_ne ne v, ?_⟩
  rw [Members.set_comm ne]
  exact h.set_of_ne ne.symm w

/-- Values put at paths that are apart close a square, also where both make a section
that is missing. -/
theorem Updates.swap (h : Updates change p ms a) (h' : Updates change' q ms b) (apart : Apart p q) :
    ∃ c, Updates change' q a c ∧ Updates change p b c := by
  induction h generalizing q b with
  | @here k ms v made =>
      cases q with
      | nil => cases h'
      | cons k' q =>
          have ne : k ≠ k' := by simpa using apart
          exact Updates.swap_of_ne (.here made) h' ne
  | @inside k ks ms inner inner' found h ih =>
      cases q with
      | nil => cases h'
      | cons k' q =>
          by_cases same : k = k'
          · subst same
            have apart : Apart ks q := by simpa using apart
            cases h' with
            | here => simp at apart
            | @inside _ _ _ _ other found' h' =>
                cases found.symm.trans found'
                obtain ⟨c, right, left⟩ := ih h' apart
                exact ⟨Members.set k (.obj c) ms, right.under k ms, left.under k ms⟩
          · exact Updates.swap_of_ne (.inside found h) h' same

end Section

namespace Spec

open Section

variable {s s' : Spec} {ms a b : List (String × Json)} {name : String}

/-! ### The sets of capabilities -/

/-- Sets of capabilities with one more in each. -/
def resets (name : String) : Option Json → Option Json
  | some (.obj sets) => some (.obj (sets.map fun (k, j) => (k, pushUniqueInto name j)))
  | _ => none

/-- Sets of capabilities are put in place of sets, and nothing is done where there are
none. -/
theorem pushIntoSets_cases (name : String) (ms : List (String × Json)) :
    (∃ sets, Json.value? ["process", "capabilities"] (.obj ms) = some (.obj sets)) ∧
        Updates (resets name) ["process", "capabilities"] ms (pushIntoSets name ms) ∨
      (¬ ∃ sets, Json.value? ["process", "capabilities"] (.obj ms) = some (.obj sets)) ∧
        pushIntoSets name ms = ms := by
  unfold pushIntoSets
  split
  case h_2 noProcess =>
    refine .inr ⟨fun ⟨sets, there⟩ => ?_, rfl⟩
    obtain ⟨process, found⟩ := Json.object_of_value? there
    exact noProcess process (by rwa [value?_singleton] at found)
  case h_1 process found =>
  have below : Json.value? ["process", "capabilities"] (.obj ms) = Members.get? "capabilities" process := by
    rw [Json.value?_cons_of_value?_singleton (by rw [value?_singleton, found]), value?_singleton]
  rw [below]
  split
  case h_2 noSets => exact .inr ⟨fun ⟨sets, there⟩ => noSets sets there, rfl⟩
  case h_1 sets inProcess =>
    refine .inl ⟨⟨sets, inProcess⟩, .inside (by rw [found]; rfl) (.here ?_)⟩
    rw [inProcess]
    rfl

/-- A value put elsewhere and a capability in the sets close a square. -/
theorem updates_pushIntoSets {change : Option Json → Option Json} {path : List String}
    (h : Updates change path ms a) (apart : Apart path ["process", "capabilities"]) :
    Updates change path (pushIntoSets name ms) (pushIntoSets name a) := by
  have kept := h.value?_of_apart apart.symm
  rcases pushIntoSets_cases name ms with ⟨some, before⟩ | ⟨none, before⟩
  · rcases pushIntoSets_cases name a with ⟨-, after⟩ | ⟨none, -⟩
    · obtain ⟨c, right, left⟩ := h.swap before apart
      rwa [right.unique after] at left
    · rw [kept] at none
      exact absurd some none
  · rcases pushIntoSets_cases name a with ⟨some, -⟩ | ⟨-, after⟩
    · rw [kept] at some
      exact absurd some none
    · rwa [before, after]

/-! ### Edits -/

/-- A change of a document at one place. -/
inductive Edit where
  /-- A value is put at the end of a path, made from the one there. -/
  | put (path : List String) (change : Option Json → Option Json)
  /-- A capability is added to the sets of the process. -/
  | sets (name : String)

namespace Edit

/-- The place of an edit. -/
def place : Edit → List String
  | put path _ => path
  | sets _ => ["process", "capabilities"]

/-- An edit leads from one document to another. -/
def Leads : Edit → List (String × Json) → List (String × Json) → Prop
  | put path change, ms, ns => Updates change path ms ns
  | sets name, ms, ns => ns = pushIntoSets name ms

variable {e e' : Edit}

theorem Leads.unique (h : e.Leads ms a) (h' : e.Leads ms b) : a = b := by
  cases e with
  | put => exact Updates.unique h h'
  | sets => exact Eq.trans h h'.symm

/-- Edits at places that are apart close a square. -/
theorem swap (h : e.Leads ms a) (h' : e'.Leads ms b) (apart : Apart e.place e'.place) :
    ∃ c, e'.Leads a c ∧ e.Leads b c := by
  cases e with
  | put path change =>
      cases e' with
      | put path' change' => exact Updates.swap h h' apart
      | sets name =>
          cases h'
          exact ⟨_, rfl, updates_pushIntoSets h apart⟩
  | sets name =>
      cases h
      cases e' with
      | put path change => exact ⟨_, updates_pushIntoSets h' apart.symm, rfl⟩
      | sets name' => exact absurd (List.prefix_refl _) apart.1

end Edit

/-- Edits, one after the other, lead from one document to another. -/
inductive Edits : List Edit → List (String × Json) → List (String × Json) → Prop where
  | nil (ms : List (String × Json)) : Edits [] ms ms
  | cons {e : Edit} {es : List Edit} {ms ns os : List (String × Json)} :
      e.Leads ms ns → Edits es ns os → Edits (e :: es) ms os

namespace Edits

variable {e' : Edit} {es es' : List Edit}

theorem single {e : Edit} (h : e.Leads ms a) : Edits [e] ms a :=
  .cons h (.nil a)

theorem unique (h : Edits es ms a) (h' : Edits es ms b) : a = b := by
  induction h with
  | nil => cases h'; rfl
  | cons first _ ih =>
      cases h' with
      | cons first' rest' =>
          cases first.unique first'
          exact ih rest'

theorem swap_one (h : Edits es ms a) (h' : e'.Leads ms b) (apart : ∀ e ∈ es, Apart e.place e'.place) :
    ∃ c, e'.Leads a c ∧ Edits es b c := by
  induction h generalizing b with
  | nil => exact ⟨b, h', .nil b⟩
  | cons first rest ih =>
      obtain ⟨m, right, left⟩ := Edit.swap first h' (apart _ List.mem_cons_self)
      obtain ⟨c, after, before⟩ := ih right fun e mem => apart e (List.mem_cons_of_mem _ mem)
      exact ⟨c, after, .cons left before⟩

/-- Lists of edits at places that are apart close a square. -/
theorem swap (h : Edits es ms a) (h' : Edits es' ms b)
    (apart : ∀ e ∈ es, ∀ e' ∈ es', Apart e.place e'.place) : ∃ c, Edits es' a c ∧ Edits es b c := by
  induction h' generalizing a with
  | nil => exact ⟨a, .nil a, h⟩
  | cons first rest ih =>
      obtain ⟨m, right, left⟩ := h.swap_one first fun e mem => apart e mem _ List.mem_cons_self
      obtain ⟨c, after, before⟩ := ih left fun e mem e' mem' => apart e mem e' (List.mem_cons_of_mem _ mem')
      exact ⟨c, .cons right after, before⟩

end Edits

/-! ### Targets -/

/-- What a step is about. -/
inductive Target where
  | args
  | env
  | capabilities
  | devices
  | uidMappings
  | gidMappings
  | mounts
  | hooks (stage : String)
  | user
  | cwd
  | hostname
  | memoryLimit
  deriving DecidableEq, Repr

/-- The places of a target. -/
def Target.places : Target → List (List String)
  | args => [["process", "args"]]
  | env => [["process", "env"]]
  | capabilities => [["linux", "capabilities"], ["process", "capabilities"]]
  | devices => [["linux", "devices"], ["linux", "resources", "devices"]]
  | uidMappings => [["linux", "uidMappings"]]
  | gidMappings => [["linux", "gidMappings"]]
  | mounts => [["mounts"]]
  | hooks stage => [["hooks", stage]]
  | user => [["process", "user"]]
  | cwd => [["process", "cwd"]]
  | hostname => [["hostname"]]
  | memoryLimit => [["linux", "resources", "memory", "limit"]]

/-- No place of a target is on the way to a place of another one. -/
theorem Target.apart_of_ne {t t' : Target} (ne : t ≠ t') : ∀ p ∈ t.places, ∀ q ∈ t'.places, Apart p q := by
  cases t <;> cases t' <;> simp_all [places]

/-- The target of a step. -/
def Step.target : Step → Target
  | pushArg _ => .args
  | pushEnv .. | pushEnvEntry _ => .env
  | addCapability _ => .capabilities
  | addDevice _ => .devices
  | addUidMapping _ => .uidMappings
  | addGidMapping _ => .gidMappings
  | addMount _ => .mounts
  | addHook stage _ => .hooks stage
  | setUser _ => .user
  | setCwd _ => .cwd
  | setHostname _ => .hostname
  | setMemoryLimit _ => .memoryLimit

/-- What a step does when it succeeds. -/
def Step.edits : Step → List Edit
  | addCapability name => [.put ["linux", "capabilities"] (relist (pushUnique name)), .sets name]
  | addDevice d =>
    [.put ["linux", "devices"] (relist (· ++ [(DeviceEntry.ofDevice d).toJson])),
      .put ["linux", "resources", "devices"] (relist (· ++ [(DeviceRule.ofDevice d).toJson]))]
  | step => step.write?.toList.map fun (path, change) => .put path change

theorem Step.place_mem_target {step : Step} : ∀ e ∈ step.edits, e.place ∈ step.target.places := by
  cases step <;> simp [edits, write?, target, Target.places, Edit.place]

theorem edits_of_apply {step : Step} (ok : step.apply s = (.ok (), s')) :
    Edits step.edits s.members s'.members := by
  cases step with
  | addCapability name =>
      obtain ⟨ms, list, sets⟩ := addCapability_eq_ok ok
      exact .cons list (.single sets)
  | addDevice d =>
      obtain ⟨s₁, node, rule⟩ := addDevice_eq_ok ok
      exact .cons (updates_of_append node) (.single (updates_of_append rule))
  | pushArg | pushEnv | pushEnvEntry | addUidMapping | addGidMapping | addMount | addHook | setUser | setCwd
  | setHostname | setMemoryLimit => exact .single (Step.updates ok rfl)

/-! ### What is left alone -/

theorem Edits.value?_of_apart {es : List Edit} {q : List String} (h : Edits es ms a)
    (apart : ∀ e ∈ es, Apart q e.place) : Json.value? q (.obj a) = Json.value? q (.obj ms) := by
  induction h with
  | nil => rfl
  | @cons e es ms ns os first _ ih =>
      rw [ih fun e mem => apart e (List.mem_cons_of_mem _ mem)]
      have here := apart e List.mem_cons_self
      cases e with
      | put => exact Updates.value?_of_apart first here
      | sets name =>
          cases first
          exact value?_pushIntoSets name ms here

/-- A value stays where it is as long as no step is about it. -/
theorem value?_of_run_apart {steps : List Step} {q : List String} (ok : s.run steps = (.ok (), s'))
    (apart : ∀ step ∈ steps, ∀ p ∈ step.target.places, Apart q p) : s'.value? q = s.value? q := by
  induction steps generalizing s with
  | nil => cases ok; rfl
  | cons step steps ih =>
      obtain ⟨s₁, first, rest⟩ := run_cons_eq_ok ok
      rw [ih rest fun step mem => apart step (List.mem_cons_of_mem _ mem)]
      refine (edits_of_apply first).value?_of_apart fun e mem => ?_
      exact apart step List.mem_cons_self _ (Step.place_mem_target e mem)

/-! ### Two steps -/

/-- What a step comes to is not changed by another one before it. -/
theorem outcome_after (s : Spec) (x y : Step) : (y.apply (x.apply s).2).1 = (y.apply s).1 :=
  (grows_apply s x).outcome y

/-- Two steps lead to the same in either order. One that fails does so before and after
the other, and is not there for it. -/
theorem document_of_two (s : Spec) {x y : Step} (differ : x.target ≠ y.target) :
    (y.apply (x.apply s).2).2 = (x.apply (y.apply s).2).2 := by
  cases first : (x.apply s).1 with
  | error e => rw [apply_of_error first, apply_of_error ((outcome_after s y x).trans first)]
  | ok _ =>
      cases second : (y.apply s).1 with
      | error e => rw [apply_of_error second, apply_of_error ((outcome_after s x y).trans second)]
      | ok _ =>
          have apart : ∀ e ∈ x.edits, ∀ e' ∈ y.edits, Apart e.place e'.place := fun e mem e' mem' =>
            Target.apart_of_ne differ _ (Step.place_mem_target e mem) _ (Step.place_mem_target e' mem')
          have left := edits_of_apply (apply_eq_of_ok first)
          have right := edits_of_apply (apply_eq_of_ok second)
          obtain ⟨ms, afterLeft, afterRight⟩ := left.swap right apart
          have last := edits_of_apply (apply_eq_of_ok ((outcome_after s x y).trans second))
          have last' := edits_of_apply (apply_eq_of_ok ((outcome_after s y x).trans first))
          exact congrArg Spec.mk ((last.unique afterLeft).trans (afterRight.unique last'))

/-- Steps with different targets commute. Whichever comes first, each comes to what it
would alone, and the document that is left is the same. -/
theorem steps_commute (s : Spec) (x y : Step) (differ : x.target ≠ y.target) :
    ∃ t, s.runEach [x, y] = ([(x.apply s).1, (y.apply s).1], t) ∧
      s.runEach [y, x] = ([(y.apply s).1, (x.apply s).1], t) := by
  refine ⟨(y.apply (x.apply s).2).2, ?_, ?_⟩
  · simp only [runEach, outcome_after]
  · simp only [runEach, outcome_after, document_of_two s differ]

/-- A mapping and a device, of which the first to come makes the section for both. -/
theorem steps_commute_sample :
    let s : Spec := ⟨[("linux", .null)]⟩
    let x := Step.addUidMapping (.single 0 1000)
    let y := Step.addDevice ⟨.ofString "/dev/null", .character, 1, 3⟩
    x.target ≠ y.target ∧
      ∃ t, s.runEach [x, y] = ([(x.apply s).1, (y.apply s).1], t) ∧
        s.runEach [y, x] = ([(y.apply s).1, (x.apply s).1], t) := by
  intro s x y
  have differ : x.target ≠ y.target := by decide
  exact ⟨differ, steps_commute s x y differ⟩

end Spec

end Sandbox
