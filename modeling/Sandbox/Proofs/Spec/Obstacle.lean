import Sandbox.Proofs.Spec.Fitting

/-!
What is in the way of a list.

The list at a path cannot be changed if the path is empty, or if it or a section on the
way to it is there and has the wrong shape (`Section.Obstacle`). From such a value no name
leads on, so there is no second one behind it, and whoever meets an obstacle meets the
same one (`Section.Obstacle.unique`).

A look at the list and a change of it are two walks: one stops at the first place where
nothing stands, the other makes the sections below it. They agree on whether the list can
be changed, and on the obstacle (`Spec.check_agrees_with_change`).
-/

namespace Sandbox

namespace Section

variable {above path ks q : List String} {k : String} {ms inner : List (String × Json)} {j : Json}
  {e e' : ConfigError}

/-- Why the list at a path cannot be changed. `above` are the names passed so far. -/
inductive Obstacle (above path : List String) (ms : List (String × Json)) : ConfigError → Prop where
  /-- There is no list without a name. -/
  | noName : path = [] → Obstacle above path ms .emptyPath
  /-- In its place is something else. -/
  | noList {j : Json} : path ≠ [] → Json.value? path (.obj ms) = some j → items? (some j) = none →
      Obstacle above path ms (.sectionShape (above ++ path) .list j.kind)
  /-- On the way to it is something that has no members. -/
  | noObject {q : List String} {j : Json} : q <+: path → q ≠ path → Json.value? q (.obj ms) = some j →
      members? (some j) = none → Obstacle above path ms (.sectionShape (above ++ q) .object j.kind)

/-- From a value that has no members no name leads on. -/
theorem value?_beyond (found : Json.value? q (.obj ms) = some j) (noMembers : members? (some j) = none)
    (before : q <+: path) (ne : q ≠ path) : Json.value? path (.obj ms) = none := by
  obtain ⟨rest, rfl⟩ := before
  cases rest with
  | nil => exact absurd (List.append_nil q).symm ne
  | cons k rest =>
      rw [Json.value?_append, found]
      cases j with
      | obj _ => cases noMembers
      | _ => rfl

/-- There is one obstacle at most. -/
theorem Obstacle.unique (h : Obstacle above path ms e) (h' : Obstacle above path ms e') : e = e' := by
  cases h with
  | noName empty =>
      subst empty
      cases h' with
      | noName _ => rfl
      | noList ne _ _ => exact absurd rfl ne
      | noObject before ne _ _ => exact absurd (List.prefix_nil.mp before) ne
  | noList ne there _ =>
      cases h' with
      | noName empty => exact absurd empty ne
      | noList _ there' _ =>
          cases there.symm.trans there'
          rfl
      | noObject before' ne' there' other' =>
          rw [value?_beyond there' other' before' ne'] at there
          cases there
  | @noObject q _ before ne there other =>
      cases h' with
      | noName empty =>
          subst empty
          exact absurd (List.prefix_nil.mp before) ne
      | noList _ there' _ =>
          rw [value?_beyond there other before ne] at there'
          cases there'
      | @noObject q' _ before' _ there' other' =>
          have same : q = q' := by
            by_contra differ
            rcases List.prefix_or_prefix_of_prefix before before' with shorter | shorter
            · rw [value?_beyond there other shorter differ] at there'
              cases there'
            · rw [value?_beyond there' other' shorter (Ne.symm differ)] at there
              cases there
          subst same
          cases there.symm.trans there'
          rfl

/-- What is in the way below a section is in the way from above it. -/
theorem Obstacle.under (found : Members.get? k ms = some (.obj inner)) (further : ks ≠ [])
    (h : Obstacle (above ++ [k]) ks inner e) : Obstacle above (k :: ks) ms e := by
  have below (q : List String) : Json.value? (k :: q) (.obj ms) = Json.value? q (.obj inner) :=
    Json.value?_cons_of_value?_singleton (by rw [value?_singleton, found]) q
  cases h with
  | noName empty => exact absurd empty further
  | noList _ there other =>
      rw [List.append_assoc, List.singleton_append]
      exact .noList (List.cons_ne_nil k ks) (by rw [below, there]) other
  | noObject before ne there other =>
      rw [List.append_assoc, List.singleton_append]
      refine .noObject (List.cons_prefix_cons.mpr ⟨rfl, before⟩) ?_ (by rw [below, there]) other
      intro same
      exact ne (List.cons.inj same).2

/-- A look at a list that fails has met an obstacle. -/
theorem obstacle_of_checkListFrom (failed : checkListFrom above path ms = .error e) :
    Obstacle above path ms e := by
  induction path generalizing above ms with
  | nil =>
      cases failed
      exact .noName rfl
  | cons k ks ih =>
      rw [checkListFrom] at failed
      rcases found : Members.get? k ms with _ | j
      · rw [found] at failed
        cases failed
      have here : Json.value? [k] (.obj ms) = some j := by rw [value?_singleton, found]
      rw [found] at failed
      cases ks with
      | nil =>
          cases j with
          | null | arr => cases failed
          | bool | num | str | obj =>
              cases failed
              exact .noList (List.cons_ne_nil k []) here rfl
      | cons k' ks =>
          have further := List.cons_ne_nil k' ks
          have before : [k] <+: k :: k' :: ks := List.prefix_append [k] (k' :: ks)
          cases j with
          | null => cases failed
          | obj inner => exact (ih failed).under found further
          | bool | num | str | arr =>
              cases failed
              exact .noObject before (by simp) here rfl

end Section

namespace Spec

open Section

variable {s : Spec} {path : List String} {e : ConfigError}

/-- Why the list at a path of a specification cannot be changed. -/
def Obstacle (s : Spec) (path : List String) (e : ConfigError) : Prop :=
  Section.Obstacle [] path s.members e

/-- Where something is in the way, the list takes no items. -/
theorem Obstacle.not_takesItems (h : s.Obstacle path e) (ne : path ≠ []) : ¬ s.TakesItems path := by
  intro takes
  cases h with
  | noName empty => exact ne empty
  | noList _ there other =>
      have items := takes.items
      rw [value?, toJson, there, other] at items
      cases items
  | noObject before further there other =>
      have members := takes.way _ (mem_inits_dropLast before further)
      rw [value?, toJson, there, other] at members
      cases members

theorem checkList_eq_ok_iff_takesItems : s.checkList path = .ok () ↔ path ≠ [] ∧ s.TakesItems path := by
  by_cases empty : path = []
  · subst empty
    constructor
    · intro ok
      cases ok
    · rintro ⟨ne, -⟩
      exact absurd rfl ne
  · rw [checkList_eq_ok_iff empty]
    exact (and_iff_right empty).symm

theorem checkList_eq_error_iff : s.checkList path = .error e ↔ s.Obstacle path e := by
  refine ⟨obstacle_of_checkListFrom, fun h => ?_⟩
  cases checked : s.checkList path with
  | error e' => rw [(obstacle_of_checkListFrom checked).unique h]
  | ok _ =>
      obtain ⟨ne, takes⟩ := checkList_eq_ok_iff_takesItems.mp checked
      exact absurd takes (h.not_takesItems ne)

/-- A look at a list and a change of it come to the same, whatever the change is: success
where the path has a name and all on the way and at its end has the right shape or is
missing, and otherwise the error that names the one obstacle, with the shape that it should
have and the kind of value that it is. -/
theorem check_agrees_with_change (s : Spec) (path : List String) (f : List Json → List Json) :
    (s.update (updateList path f)).1 = s.checkList path ∧
    (s.checkList path = .ok () ↔ path ≠ [] ∧ s.TakesItems path) ∧
    ∀ e, s.checkList path = .error e ↔ s.Obstacle path e := by
  refine ⟨?_, checkList_eq_ok_iff_takesItems, fun e => checkList_eq_error_iff⟩
  exact updateListFrom_outcome f [] path s.members

/-- The text of the error leads to the obstacle, and not to the list. -/
example :
    let s : Spec := ⟨[("linux", .obj [("resources", .str "all")])]⟩
    (s.checkList ["linux", "resources", "devices"]).mapError ConfigError.detail =
      .error "`linux.resources` must be an object, found a string" := by
  decide +kernel

end Spec

end Sandbox
