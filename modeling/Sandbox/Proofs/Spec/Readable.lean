import Sandbox.Proofs.Json.Fields
import Sandbox.Proofs.Json.Text
import Sandbox.Proofs.Spec.Growth

/-!
Specifications stay readable.

A document is readable if it can be read back from its text: its members are in order,
its numbers are integers of 64 bits, and it is not too deep (`Json.Readable`). What steps
put into a specification is shallow, and so are the places where they put it, so a
template that is readable stays so (`Spec.readable_runEach`).

What the parts of a step keep is said of every property that lists and objects have from
what is in them (`Json.Hereditary`): to be readable is one, and so is the order of the
members alone.
-/

namespace Sandbox

namespace Json

/-- A document that can be read back where lists and objects may stand so deep within
each other. -/
structure Readable (d : Nat) (j : Json) : Prop where
  sorted : j.Sorted
  integral : j.Integral
  shallow : j.depth ≤ d

variable {d d' n : Nat} {j v : Json} {l : List Json} {ms : List (String × Json)} {k s : String}

theorem Readable.mono (h : Readable d j) (le : d ≤ d') : Readable d' j :=
  ⟨h.sorted, h.integral, h.shallow.trans le⟩

theorem readable_arr : Readable (d + 1) (arr l) ↔ ∀ j ∈ l, Readable d j := by
  have parts : Readable (d + 1) (arr l) ↔
      (∀ j ∈ l, j.Sorted) ∧ (∀ j ∈ l, j.Integral) ∧ ∀ j ∈ l, j.depth ≤ d := by
    rw [← sorted_arr, ← integral_arr, ← depthItems_le_iff, ← Nat.add_le_add_iff_right, ← depth]
    constructor
    · rintro ⟨sorted, integral, shallow⟩
      exact ⟨sorted, integral, shallow⟩
    · rintro ⟨sorted, integral, shallow⟩
      exact ⟨sorted, integral, shallow⟩
  rw [parts]
  constructor
  · rintro ⟨sorted, integral, shallow⟩ j mem
    exact ⟨sorted j mem, integral j mem, shallow j mem⟩
  · intro all
    exact ⟨fun j mem => (all j mem).sorted, fun j mem => (all j mem).integral,
      fun j mem => (all j mem).shallow⟩

theorem readable_obj : Readable (d + 1) (obj ms) ↔ Members.Sorted ms ∧ ∀ m ∈ ms, Readable d m.2 := by
  constructor
  · rintro ⟨sorted, integral, shallow⟩
    rw [sorted_obj] at sorted
    rw [integral_obj] at integral
    rw [depth, Nat.add_le_add_iff_right, depthMembers_le_iff] at shallow
    exact ⟨sorted.1, fun m mem => ⟨sorted.2 m mem, integral m mem, shallow m mem⟩⟩
  · rintro ⟨ordered, all⟩
    refine ⟨?_, ?_, ?_⟩
    · exact sorted_obj.mpr ⟨ordered, fun m mem => (all m mem).sorted⟩
    · exact integral_obj.mpr fun m mem => (all m mem).integral
    · rw [depth, Nat.add_le_add_iff_right, depthMembers_le_iff]
      exact fun m mem => (all m mem).shallow

theorem readable_bool (d : Nat) (b : Bool) : Readable d (bool b) :=
  ⟨trivial, trivial, Nat.zero_le d⟩

theorem readable_str (d : Nat) (s : String) : Readable d (str s) :=
  ⟨trivial, trivial, Nat.zero_le d⟩

theorem readable_nat (d : Nat) (small : n < 2 ^ 64) : Readable d (nat n) := by
  have whole : (nat n).Integral := ⟨by omega, by omega⟩
  exact ⟨trivial, whole, Nat.zero_le d⟩

theorem readable_uint64 (d : Nat) (n : UInt64) : Readable d (nat n.toNat) :=
  readable_nat d n.toNat_lt

theorem readable_uint32 (d : Nat) (n : UInt32) : Readable d (nat n.toNat) :=
  readable_nat d (n.toNat_lt.trans (by decide))

theorem readable_strings (d : Nat) (l : List String) : Readable (d + 1) (strings l) := by
  rw [strings, readable_arr, List.forall_mem_map]
  exact fun s _ => readable_str d s

theorem readable_ofList {l : List (String × Json)} (all : ∀ m ∈ l, Readable d m.2) : Readable (d + 1) (ofList l) :=
  readable_obj.mpr ⟨Members.sorted_ofList l, fun m mem => all m (Members.mem_ofList mem)⟩

/-- A property of the documents of each depth that every readable one has, and that lists
and objects have if what is in them has it. -/
structure Hereditary (P : Nat → Json → Prop) : Prop where
  readable : ∀ {d : Nat} {j : Json}, Readable d j → P d j
  arr : ∀ {d : Nat} {l : List Json}, P (d + 1) (arr l) ↔ ∀ j ∈ l, P d j
  obj : ∀ {d : Nat} {ms : List (String × Json)},
    P (d + 1) (obj ms) ↔ Members.Sorted ms ∧ ∀ m ∈ ms, P d m.2

theorem hereditary_readable : Hereditary Readable :=
  ⟨id, readable_arr, readable_obj⟩

theorem hereditary_sorted : Hereditary fun _ => Json.Sorted :=
  ⟨Readable.sorted, sorted_arr, sorted_obj⟩

variable {P : Nat → Json → Prop}

theorem Hereditary.set (h : Hereditary P) (whole : P (d + 1) (.obj ms)) (k : String) (value : P d v) :
    P (d + 1) (.obj (Members.set k v ms)) := by
  obtain ⟨ordered, all⟩ := h.obj.mp whole
  refine h.obj.mpr ⟨ordered.set k v, fun m mem => ?_⟩
  rcases Members.mem_set mem with rfl | mem
  · exact value
  · exact all m mem

theorem Hereditary.get? (h : Hereditary P) (whole : P (d + 1) (.obj ms)) (found : Members.get? k ms = some v) : P d v :=
  (h.obj.mp whole).2 _ (Members.mem_of_get? found)

end Json

open Json

/-! ### Fragments -/

theorem Mount.readable (m : Mount) : Readable 2 m.toJson :=
  readable_ofList (by simp [readable_str, readable_strings])

theorem DeviceEntry.readable (e : DeviceEntry) : Readable 2 e.toJson :=
  readable_ofList (by simp [readable_str, readable_uint64, readable_uint32])

theorem DeviceRule.readable (r : DeviceRule) : Readable 2 r.toJson :=
  readable_ofList (by simp [readable_bool, readable_str, readable_uint64])

theorem IdMapping.readable (m : IdMapping) : Readable 2 m.toJson :=
  readable_ofList (by simp [readable_uint32])

theorem Hook.readable (h : Hook) : Readable 2 h.toJson :=
  readable_ofList (by simp [readable_str, readable_strings])

theorem User.readable (u : User) : Readable 2 u.toJson := by
  have gids : Readable 1 (.arr (u.additionalGids.map fun g => nat g.toNat)) := by
    rw [readable_arr, List.forall_mem_map]
    exact fun g _ => readable_uint32 0 g
  exact readable_ofList (by simp [readable_uint32, gids])

/-! ### Sections -/

namespace Section

variable {P : Nat → Json → Prop} {e : Nat} {change : Option Json → Option Json} {f : List Json → List Json}
  {path : List String} {ms ms' : List (String × Json)}

theorem hereditary_of_members? (h : Hereditary P) {x : Option Json} {inner : List (String × Json)}
    (found : members? x = some inner) (all : ∀ j ∈ x, P (e + 1) j) : P (e + 1) (.obj inner) := by
  unfold members? at found
  split at found
  case h_1 | h_2 =>
    cases found
    exact h.obj.mpr ⟨List.Pairwise.nil, List.forall_mem_nil _⟩
  case h_3 =>
    cases found
    exact all _ rfl
  case h_4 => cases found

/-- What is put at the end of a path has a property in its place, so the whole has it. -/
theorem Reaches.hereditary (reached : Reaches change path ms ms') (h : Hereditary P)
    (keeps : ∀ x v, (∀ j ∈ x, P e j) → change x = some v → P e v) (whole : P (e + path.length) (.obj ms)) :
    P (e + path.length) (.obj ms') := by
  induction reached with
  | stop => exact whole
  | here made => exact h.set whole _ (keeps _ _ (fun j there => h.get? whole there) made)
  | @inside k ks ms inner inner' further found _ ih =>
      obtain ⟨n, length⟩ : ∃ n, ks.length = n + 1 :=
        Nat.exists_eq_add_one.mpr (List.length_pos_iff.mpr further)
      rw [List.length_cons, ← Nat.add_assoc] at whole ⊢
      have below : P (e + ks.length) (.obj inner) := by
        rw [length, ← Nat.add_assoc]
        refine hereditary_of_members? h found fun j there => ?_
        rw [Nat.add_assoc, ← length]
        exact h.get? whole there
      exact h.set whole k (ih below)

theorem hereditary_relist (h : Hereditary P) (keeps : ∀ l, P (e + 1) (.arr l) → P (e + 1) (.arr (f l))) :
    ∀ x v, (∀ j ∈ x, P (e + 1) j) → relist f x = some v → P (e + 1) v := by
  intro x v all made
  obtain ⟨l, found, rfl⟩ := Option.map_eq_some_iff.mp made
  refine keeps l ?_
  unfold items? at found
  split at found
  case h_1 | h_2 =>
    cases found
    exact h.arr.mpr (List.forall_mem_nil _)
  case h_3 =>
    cases found
    exact all _ rfl
  case h_4 => cases found

end Section

namespace Spec

open Section

variable {P : Nat → Json → Prop} {s : Spec} {d : Nat} {path : List String}

/-- A list at the end of a short path may get shallow items. -/
theorem hereditary_updateList (h : Hereditary P) {f : List Json → List Json} (short : path.length + 1 ≤ d)
    (keeps : ∀ e l, path.length + (e + 1) = d → P (e + 1) (.arr l) → P (e + 1) (.arr (f l)))
    (whole : P d s.toJson) : P d (s.update (updateList path f)).2.toJson := by
  obtain ⟨e, rfl⟩ := Nat.exists_eq_add_of_le short
  rw [show path.length + 1 + e = (e + 1) + path.length by omega] at whole ⊢
  exact (reaches_updateListFrom f [] path s.members).hereditary h
    (hereditary_relist h fun l => keeps e l (by omega)) whole

theorem hereditary_concat (h : Hereditary P) {e : Nat} {l : List Json} {item : Json} (items : P (e + 1) (.arr l))
    (last : P e item) : P (e + 1) (.arr (l ++ [item])) := by
  rw [h.arr] at items ⊢
  exact List.forall_mem_append.mpr ⟨items, List.forall_mem_singleton.mpr last⟩

theorem hereditary_append (h : Hereditary P) {item : Json} (short : path.length + 3 ≤ d) (shallow : Readable 2 item)
    (whole : P d s.toJson) : P d (s.append path item).2.toJson := by
  refine hereditary_updateList h (by omega) (fun e l room items => ?_) whole
  exact hereditary_concat h items (h.readable (shallow.mono (by omega)))

theorem hereditary_put (h : Hereditary P) {name : String} {v : Json} (short : path.length + 3 ≤ d)
    (shallow : Readable 2 v) (whole : P d s.toJson) : P d (s.put path name v).2.toJson := by
  obtain ⟨e, rfl⟩ := Nat.exists_eq_add_of_le short
  have reached : Reaches (fun _ => some v) (path ++ [name]) s.members (s.put path name v).2.members :=
    reaches_updateObjectFrom name v [] path s.members
  have length : path.length + 3 + e = (e + 2) + (path ++ [name]).length := by
    simp only [List.length_append, List.length_singleton]
    omega
  rw [length] at whole ⊢
  refine reached.hereditary h (fun _ _ _ made => ?_) whole
  cases made
  exact h.readable (shallow.mono (by omega))

theorem hereditary_andThen {r : Except ConfigError Unit × Spec} {next : Spec → Except ConfigError Unit × Spec}
    (first : P d r.2.toJson) (rest : ∀ t : Spec, P d t.toJson → P d (next t).2.toJson) :
    P d (andThen r next).2.toJson := by
  obtain ⟨outcome, t⟩ := r
  cases outcome with
  | error e => exact first
  | ok _ => exact rest t first

theorem hereditary_pushUnique (h : Hereditary P) {e : Nat} {l : List Json} (name : String)
    (items : P (e + 1) (.arr l)) : P (e + 1) (.arr (pushUnique name l)) := by
  unfold pushUnique
  split
  · exact items
  · exact hereditary_concat h items (h.readable (readable_str e name))

theorem hereditary_pushUniqueInto (h : Hereditary P) {e : Nat} {j : Json} (name : String) (value : P (e + 1) j) :
    P (e + 1) (pushUniqueInto name j) := by
  cases j with
  | arr l => exact hereditary_pushUnique h name value
  | null | bool | num | str | obj => exact value

/-- The sets of capabilities that are declared have a property if they had it. -/
theorem hereditary_pushIntoSets (h : Hereditary P) {ms : List (String × Json)} (name : String)
    (whole : P (d + 4) (.obj ms)) : P (d + 4) (.obj (pushIntoSets name ms)) := by
  unfold pushIntoSets
  split
  case h_2 => exact whole
  case h_1 process found =>
  split
  case h_2 => exact whole
  case h_1 sets inProcess =>
  have within := h.get? whole found
  obtain ⟨ordered, all⟩ := h.obj.mp (h.get? within inProcess)
  refine h.set whole _ (h.set within _ (h.obj.mpr ⟨?_, ?_⟩))
  · exact List.pairwise_map.mpr ordered
  · rw [List.forall_mem_map]
    exact fun m mem => hereditary_pushUniqueInto h name (all m mem)

/-- A step keeps a readable specification readable, whether it fails or not. -/
theorem readable_apply (step : Step) (readable : Readable depthLimit s.toJson) :
    Readable depthLimit (step.apply s).2.toJson := by
  have h := hereditary_readable
  have text (t : String) : Readable 2 (.str t) := readable_str 2 t
  cases step with
  | pushArg arg => exact hereditary_append h (by decide) (text _) readable
  | pushEnv key value => exact hereditary_append h (by decide) (text _) readable
  | pushEnvEntry entry => exact hereditary_append h (by decide) (text _) readable
  | addUidMapping m => exact hereditary_append h (by decide) m.readable readable
  | addGidMapping m => exact hereditary_append h (by decide) m.readable readable
  | addMount m => exact hereditary_append h (by decide) m.readable readable
  | addHook stage hook => exact hereditary_append h (by simp [depthLimit]) hook.readable readable
  | setUser u => exact hereditary_put h (by decide) u.readable readable
  | setCwd cwd => exact hereditary_put h (by decide) (text _) readable
  | setHostname hostname => exact h.set readable "hostname" (readable_str _ hostname)
  | setMemoryLimit bytes => exact hereditary_put h (by decide) (readable_uint64 2 bytes) readable
  | addCapability name =>
      refine hereditary_andThen
        (hereditary_updateList h (by decide) (fun e l _ => hereditary_pushUnique h name) readable) ?_
      exact fun t readable => hereditary_pushIntoSets h name readable
  | addDevice device =>
      refine hereditary_andThen readable fun t readable => ?_
      refine hereditary_andThen readable fun t readable => ?_
      refine hereditary_andThen (hereditary_append h (by decide) (DeviceEntry.readable _) readable) fun t readable => ?_
      exact hereditary_append h (by decide) (DeviceRule.readable _) readable

theorem readable_runEach (steps : List Step) (readable : Readable depthLimit s.toJson) :
    Readable depthLimit (s.runEach steps).2.toJson := by
  induction steps generalizing s with
  | nil => exact readable
  | cons step steps ih => exact ih (readable_apply step readable)

end Spec

end Sandbox
