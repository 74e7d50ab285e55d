import Sandbox.Proofs.Spec.Commute
import Sandbox.Proofs.Spec.Gains

/-!
What granting capabilities adds.

A capability is added to the list of the instance and to every set that the process
declares. Each of them is a list of its own, with other contents, and takes the names that
are new to it (`Spec.withNames`): behind what it has, each once, in the order in which they
are granted. So no name that is there is repeated, and a list without repetitions stays
one.

A run of grants does this to all the lists at once, and makes no set
(`Spec.capabilities_granted_once`). Granted again, the names change nothing.
-/

namespace Sandbox

namespace Json

/-- The value with another list in its place, if it is a list. -/
def mapItems (f : List Json → List Json) : Json → Json
  | .arr l => .arr (f l)
  | j => j

theorem mapItems_comp (f g : List Json → List Json) : mapItems f ∘ mapItems g = mapItems (f ∘ g) := by
  funext j
  cases j <;> rfl

theorem mapItems_id : mapItems id = id := by
  funext j
  cases j <;> rfl

/-- The value with other values of its members, if it is an object. -/
def mapMembers (f : Json → Json) : Json → Json
  | .obj ms => .obj (ms.map fun (k, j) => (k, f j))
  | j => j

theorem mapMembers_comp (f g : Json → Json) : mapMembers f ∘ mapMembers g = mapMembers (f ∘ g) := by
  funext j
  cases j with
  | obj ms => simp [mapMembers, Function.comp_def]
  | _ => rfl

theorem mapMembers_id : mapMembers id = id := by
  funext j
  cases j with
  | obj ms => simp [mapMembers]
  | _ => rfl

end Json

namespace Section

variable {change : Option Json → Option Json} {path : List String} {ms ms' : List (String × Json)}

/-- A value that is put where it is already changes nothing. -/
theorem Updates.eq_of_value? {v : Json} (h : Updates change path ms ms')
    (there : Json.value? path (.obj ms) = some v) (kept : change (some v) = some v) : ms' = ms := by
  induction h with
  | here made =>
      rw [value?_singleton] at there
      rw [there, kept] at made
      cases made
      exact Members.set_of_get? there
  | @inside k ks ms inner inner' found h ih =>
      obtain ⟨k', ks, rfl⟩ : ∃ k' ks', ks = k' :: ks' := by
        cases h with
        | here | inside => exact ⟨_, _, rfl⟩
      obtain ⟨object, here⟩ := Json.object_of_value? there
      rw [value?_singleton] at here
      rw [here] at found
      cases found
      rw [ih ?_]
      · exact Members.set_of_get? here
      · rwa [Json.value?_cons_of_value?_singleton (by rw [value?_singleton, here])] at there

end Section

namespace Spec

open Section

variable {s t : Spec} {name : String} {names : List String} {l : List Json}

/-! ### One list -/

theorem pushUnique_of_mem (there : .str name ∈ l) : pushUnique name l = l := by
  rw [pushUnique, if_pos]
  exact List.any_eq_true.mpr ⟨_, there, decide_eq_true rfl⟩

theorem pushUnique_of_not_mem (new : .str name ∉ l) : pushUnique name l = l ++ [.str name] := by
  rw [pushUnique, if_neg]
  rintro held
  obtain ⟨j, there, named⟩ := List.any_eq_true.mp held
  cases j with
  | str text =>
      cases of_decide_eq_true named
      exact new there
  | _ => cases of_decide_eq_true named

/-- The names that are new to a list, each once, in the order in which they come first. -/
def newNames (l : List Json) (names : List String) : List String :=
  (names.filter fun name => .str name ∉ l).eraseDups

/-- A list with the names that are new to it behind what it has. -/
def withNames (names : List String) (l : List Json) : List Json :=
  l ++ (newNames l names).map .str

theorem withNames_nil (l : List Json) : withNames [] l = l :=
  List.append_nil l

/-- Names are added one after the other. -/
theorem withNames_cons (name : String) (names : List String) (l : List Json) :
    withNames (name :: names) l = withNames names (pushUnique name l) := by
  by_cases there : .str name ∈ l
  · have skipped : newNames l (name :: names) = newNames l names := by
      rw [newNames, List.filter_cons_of_neg (by simpa using there)]
      rfl
    rw [pushUnique_of_mem there, withNames, skipped]
    rfl
  · -- Behind the first of them no name is new that is the same.
    have rest : newNames l (name :: names) = name :: newNames (l ++ [.str name]) names := by
      rw [newNames, List.filter_cons_of_pos (by simpa using there), List.eraseDups_cons, List.filter_filter, newNames]
      congr 3
      funext other
      simp [not_or, and_comm, beq_eq_decide]
    rw [pushUnique_of_not_mem there, withNames, rest, withNames, List.append_assoc]
    rfl

theorem count_pushUnique (name other : String) (l : List Json) :
    (pushUnique name l).count (.str other) =
      if other = name then max 1 (l.count (.str other)) else l.count (.str other) := by
  by_cases there : .str name ∈ l
  · rw [pushUnique_of_mem there]
    split
    · next same =>
        subst same
        exact (max_eq_right (List.one_le_count_iff.mpr there)).symm
    · rfl
  · rw [pushUnique_of_not_mem there, List.count_append]
    split
    · next same =>
        subst same
        rw [List.count_eq_zero_of_not_mem there, List.count_singleton_self]
        rfl
    · next differ =>
        rw [List.count_singleton, if_neg (by simpa using Ne.symm differ), Nat.add_zero]

/-- A name is there once if it was not there before, and as often as before if it was. -/
theorem count_withNames (names : List String) (l : List Json) (name : String) :
    (withNames names l).count (.str name) =
      if name ∈ names then max 1 (l.count (.str name)) else l.count (.str name) := by
  induction names generalizing l with
  | nil => rw [withNames_nil, if_neg List.not_mem_nil]
  | cons first names ih =>
      rw [withNames_cons, ih, count_pushUnique]
      by_cases same : name = first
      · subst same
        rw [if_pos rfl, if_pos List.mem_cons_self, max_eq_right (le_max_left _ _), ite_self]
      · rw [if_neg same]
        simp only [List.mem_cons, same, false_or]

theorem mem_withNames (mem : name ∈ names) (l : List Json) : .str name ∈ withNames names l := by
  have count := count_withNames names l name
  rw [if_pos mem] at count
  exact List.one_le_count_iff.mp (count ▸ le_max_left _ _)

theorem nodup_pushUnique (once : l.Nodup) (name : String) : (pushUnique name l).Nodup := by
  by_cases there : .str name ∈ l
  · rwa [pushUnique_of_mem there]
  · rw [pushUnique_of_not_mem there]
    refine List.nodup_append.mpr ⟨once, by simp, fun j mem other added same => ?_⟩
    rw [List.mem_singleton] at added
    exact there (added ▸ same ▸ mem)

theorem nodup_withNames (once : l.Nodup) (names : List String) : (withNames names l).Nodup := by
  induction names generalizing l with
  | nil => rwa [withNames_nil]
  | cons name names ih =>
      rw [withNames_cons]
      exact ih (nodup_pushUnique once name)

/-! ### One grant -/

/-- The list of the instance takes a name that is new to it. -/
theorem list_of_addCapability (ok : s.addCapability name = (.ok (), t)) :
    ∃ l, items? (s.value? ["linux", "capabilities"]) = some l ∧
      t.value? ["linux", "capabilities"] = some (.arr (pushUnique name l)) := by
  obtain ⟨ms, run, members⟩ := addCapability_eq_ok ok
  obtain ⟨v, made, written⟩ := run.value?
  obtain ⟨l, before, rfl⟩ := Option.map_eq_some_iff.mp made
  refine ⟨l, before, ?_⟩
  rw [value?, toJson, members, value?_pushIntoSets name ms (by simp), written]

/-- Every set takes a name that is new to it. -/
theorem sets_of_addCapability (ok : s.addCapability name = (.ok (), t)) :
    t.value? ["process", "capabilities"] =
      (s.value? ["process", "capabilities"]).map (Json.mapMembers (Json.mapItems (pushUnique name))) := by
  obtain ⟨ms, run, members⟩ := addCapability_eq_ok ok
  have before : Json.value? ["process", "capabilities"] (.obj ms) = s.value? ["process", "capabilities"] :=
    run.value?_of_apart (by simp)
  rw [← before, value?, toJson, members]
  rcases pushIntoSets_cases name ms with ⟨⟨sets, there⟩, put⟩ | ⟨none, unchanged⟩
  · obtain ⟨v, made, written⟩ := put.value?
    rw [there] at made ⊢
    rw [written, ← made]
    rfl
  · rw [unchanged]
    cases found : Json.value? ["process", "capabilities"] (.obj ms) with
    | none => rfl
    | some j =>
        cases j with
        | obj sets => exact absurd ⟨sets, found⟩ none
        | _ => rfl

/-- A name that is everywhere already changes nothing. -/
theorem eq_of_addCapability (ok : s.addCapability name = (.ok (), t))
    (list : s.value? ["linux", "capabilities"] = some (.arr l)) (there : .str name ∈ l)
    (sets : (s.value? ["process", "capabilities"]).map (Json.mapMembers (Json.mapItems (pushUnique name))) =
      s.value? ["process", "capabilities"]) : t = s := by
  obtain ⟨ms, run, members⟩ := addCapability_eq_ok ok
  have unchanged : ms = s.members :=
    run.eq_of_value? list (by rw [relist, items?, Option.map_some, pushUnique_of_mem there])
  subst unchanged
  refine congrArg Spec.mk (members.trans ?_)
  rcases pushIntoSets_cases name s.members with ⟨⟨ms, object⟩, put⟩ | ⟨-, same⟩
  · refine put.eq_of_value? object ?_
    rw [value?, toJson, object] at sets
    exact sets
  · exact same

/-! ### A run of grants -/

/-- Grants of capabilities. -/
def grants (names : List String) : List Step :=
  names.map .addCapability

theorem list_of_grants (list : s.value? ["linux", "capabilities"] = some (.arr l))
    (ok : s.run (grants names) = (.ok (), t)) :
    t.value? ["linux", "capabilities"] = some (.arr (withNames names l)) := by
  induction names generalizing s l with
  | nil =>
      cases ok
      rw [list, withNames_nil]
  | cons name names ih =>
      obtain ⟨s₁, first, rest⟩ := run_cons_eq_ok ok
      obtain ⟨l', before, after⟩ := list_of_addCapability first
      rw [list] at before
      cases before
      rw [ih after rest, withNames_cons]

theorem sets_of_grants (ok : s.run (grants names) = (.ok (), t)) :
    t.value? ["process", "capabilities"] =
      (s.value? ["process", "capabilities"]).map (Json.mapMembers (Json.mapItems (withNames names))) := by
  induction names generalizing s with
  | nil =>
      cases ok
      have same : withNames [] = id := funext withNames_nil
      rw [same, Json.mapItems_id, Json.mapMembers_id, Option.map_id_apply]
  | cons name names ih =>
      obtain ⟨s₁, first, rest⟩ := run_cons_eq_ok ok
      have split : withNames (name :: names) = withNames names ∘ pushUnique name :=
        funext (withNames_cons name names)
      rw [ih rest, sets_of_addCapability first, Option.map_map, Json.mapMembers_comp, Json.mapItems_comp, split]

/-- What grants of capabilities make of a specification. -/
structure Granted (names : List String) (s t : Spec) : Prop where
  /-- The list of the instance is there and takes the names that are new to it. -/
  list : ∃ l, items? (s.value? ["linux", "capabilities"]) = some l ∧
    t.value? ["linux", "capabilities"] = some (.arr (withNames names l))
  /-- Each set takes the names that are new to it. No set is made, and what is no list is
  what it was. -/
  sets : t.value? ["process", "capabilities"] =
    (s.value? ["process", "capabilities"]).map (Json.mapMembers (Json.mapItems (withNames names)))
  /-- Nothing else is touched. -/
  elsewhere : ∀ q, Apart q ["linux", "capabilities"] → Apart q ["process", "capabilities"] →
    t.value? q = s.value? q

theorem granted_of_run (some : names ≠ []) (ok : s.run (grants names) = (.ok (), t)) : Granted names s t := by
  refine ⟨?_, sets_of_grants ok, fun q list sets => value?_of_run_apart ok ?_⟩
  · obtain ⟨name, names, rfl⟩ := List.exists_cons_of_ne_nil some
    obtain ⟨s₁, first, rest⟩ := run_cons_eq_ok ok
    obtain ⟨l, before, after⟩ := list_of_addCapability first
    exact ⟨l, before, by rw [list_of_grants after rest, withNames_cons]⟩
  · intro step mem p place
    obtain ⟨name, -, rfl⟩ := List.mem_map.mp mem
    simp only [Step.target, Target.places, List.mem_cons, List.not_mem_nil, or_false] at place
    rcases place with rfl | rfl
    · exact list
    · exact sets

theorem run_grants_of_fits (fits : s.TakesItems ["linux", "capabilities"]) (names : List String) :
    ∃ t, s.run (grants names) = (.ok (), t) := by
  have ok : (s.run (grants names)).1 = .ok () := by
    refine run_eq_ok_iff.mpr fun step mem => ?_
    obtain ⟨name, -, rfl⟩ := List.mem_map.mp mem
    exact fits
  exact ⟨_, Prod.ext ok rfl⟩

theorem Granted.again (h : Granted names s t) (fits : t.TakesItems ["linux", "capabilities"])
    {again : List String} (sub : again ⊆ names) : t.run (grants again) = (.ok (), t) := by
  induction again with
  | nil => rfl
  | cons name again ih =>
      obtain ⟨mem, sub⟩ := List.cons_subset.mp sub
      obtain ⟨u, ok⟩ := run_grants_of_fits fits [name]
      obtain ⟨u, ok, -⟩ := run_cons_eq_ok ok
      have same : u = t := by
        obtain ⟨l, -, list⟩ := h.list
        refine eq_of_addCapability ok list (mem_withNames mem l) ?_
        have absorbed : pushUnique name ∘ withNames names = withNames names :=
          funext fun l => pushUnique_of_mem (mem_withNames mem l)
        rw [h.sets, Option.map_map, Json.mapMembers_comp, Json.mapItems_comp, absorbed]
      subst same
      rw [grants, List.map_cons, run, ok]
      exact ih sub

/-- Capabilities are granted once. Where the list of the instance can take them, the list
and each set of the process take the names that are new to them, in order and each once,
and no set is made. The same names again change nothing. What a list had once it has once,
and a list without repetitions stays one. -/
theorem capabilities_granted_once (s : Spec) (names : List String) (some : names ≠ [])
    (fits : s.TakesItems ["linux", "capabilities"]) :
    (∃ t, s.run (names.map .addCapability) = (.ok (), t) ∧ Granted names s t ∧
      ∀ again ⊆ names, t.run (again.map .addCapability) = (.ok (), t)) ∧
    ∀ l, (l.Nodup → (withNames names l).Nodup) ∧
      ∀ name ∈ names, (withNames names l).count (.str name) = max 1 (l.count (.str name)) := by
  constructor
  · obtain ⟨t, ok⟩ := run_grants_of_fits fits names
    have granted := granted_of_run some ok
    have still : t.TakesItems ["linux", "capabilities"] := by
      have grown := grows_run s (grants names)
      rw [ok] at grown
      exact (grown.fits_iff (.addCapability "")).mpr fits
    exact ⟨t, ok, granted, fun _ sub => granted.again still sub⟩
  · intro l
    refine ⟨fun once => nodup_withNames once names, fun name mem => ?_⟩
    rw [count_withNames, if_pos mem]

/-- Each list takes the names that it lacks, and what is not a list is left alone. -/
theorem capabilities_granted_once_sample :
    let s : Spec := ⟨[("linux", .obj [("capabilities", .arr [.str "CAP_KILL"])]),
      ("process", .obj [("capabilities",
        .obj [("bounding", .arr [.str "CAP_CHOWN", .nat 1]), ("note", .str "none")])])]⟩
    let t : Spec := ⟨[("linux", .obj [("capabilities", .arr [.str "CAP_KILL", .str "CAP_CHOWN"])]),
      ("process", .obj [("capabilities",
        .obj [("bounding", .arr [.str "CAP_CHOWN", .nat 1, .str "CAP_KILL"]), ("note", .str "none")])])]⟩
    s.run (["CAP_CHOWN", "CAP_KILL", "CAP_CHOWN"].map .addCapability) = (.ok (), t) ∧
      t.run (["CAP_KILL"].map .addCapability) = (.ok (), t) := by
  intro s t
  have ran : s.run (["CAP_CHOWN", "CAP_KILL", "CAP_CHOWN"].map .addCapability) = (.ok (), t) := by
    decide +kernel
  obtain ⟨u, ok, -, again⟩ :=
    (capabilities_granted_once s ["CAP_CHOWN", "CAP_KILL", "CAP_CHOWN"] (by simp) (by decide +kernel)).1
  cases ran.symm.trans ok
  exact ⟨ran, again ["CAP_KILL"] (by simp)⟩

end Spec

end Sandbox
