import Sandbox.Proofs.Json.Fields

/-!
Documents without nulls at some places.

Deleting the nulls at the places of a set gives a document a normal form (`Json.prune`).
For members in order it is said name by name what is left (`Json.get?_pruneMembers`), and
so a value may be put under a name before the nulls are deleted or afterwards
(`Json.pruneMembers_set`). A document and one that is left of it when some of these nulls
are deleted (`Json.Deletes`) have the same normal form.
-/

namespace Sandbox

namespace Members

variable {α : Type} {ms ns : List (String × α)}

/-- Members in order are known by what is found under each name. -/
theorem eq_of_get? (left : Sorted ms) (right : Sorted ns) (same : ∀ name, get? name ms = get? name ns) : ms = ns := by
  induction ms generalizing ns with
  | nil =>
      cases ns with
      | nil => rfl
      | cons n ns =>
          have found := same n.1
          rw [get?_cons, if_pos rfl] at found
          cases found
  | cons m ms ih =>
      cases ns with
      | nil =>
          have found := same m.1
          rw [get?_cons, if_pos rfl] at found
          cases found
      | cons n ns =>
          obtain ⟨belowLeft, left⟩ := List.pairwise_cons.mp left
          obtain ⟨belowRight, right⟩ := List.pairwise_cons.mp right
          -- Each of the two first names is the least one of all.
          have first : m.1 = n.1 := by
            by_contra ne
            have later := same m.1
            have later' := same n.1
            rw [get?_cons, get?_cons, if_pos rfl, if_neg (Ne.symm ne)] at later
            rw [get?_cons, get?_cons, if_neg ne, if_pos rfl] at later'
            exact String.lt_irrefl _ (String.lt_trans (belowRight _ (mem_of_get? later.symm))
              (belowLeft _ (mem_of_get? later')))
          have value := same m.1
          rw [get?_cons, get?_cons, if_pos rfl, if_pos first.symm] at value
          have rest : ms = ns := by
            refine ih left right fun name => ?_
            by_cases here : m.1 = name
            · rw [← here, get?_eq_none_of_lt belowLeft, first, get?_eq_none_of_lt belowRight]
            · have there := same name
              rwa [get?_cons, get?_cons, if_neg here, if_neg (first ▸ here)] at there
          rw [rest, Prod.ext first (Option.some.inj value)]

end Members

namespace Json

/-- A member is not a null at a place of a set. -/
def stays (places : List String → Bool) (m : String × Json) : Bool :=
  m.2 ≠ null || !places [m.1]

mutual

/-- The document without the nulls at the places of a set. Nothing in a list has a place. -/
def prune (places : List String → Bool) : Json → Json
  | obj ms => obj (pruneMembers places ms)
  | j => j

@[inherit_doc prune]
def pruneMembers (places : List String → Bool) : List (String × Json) → List (String × Json)
  | [] => []
  | (k, j) :: ms =>
    if stays places (k, j) then (k, j.prune fun q => places (k :: q)) :: pruneMembers places ms
    else pruneMembers places ms

end

variable {places : List String → Bool} {ms ns : List (String × Json)} {k : String} {j v : Json}

@[simp] theorem prune_arr (l : List Json) : (arr l).prune places = arr l :=
  rfl

@[simp] theorem prune_obj (ms : List (String × Json)) : (obj ms).prune places = obj (pruneMembers places ms) :=
  rfl

theorem stays_of_ne (nonnull : v ≠ null) : stays places (k, v) = true := by
  simp [stays, nonnull]

theorem pruneMembers_eq (places : List String → Bool) (ms : List (String × Json)) :
    pruneMembers places ms =
      (ms.filter (stays places)).map fun m => (m.1, m.2.prune fun q => places (m.1 :: q)) := by
  induction ms with
  | nil => rfl
  | cons m ms ih =>
      obtain ⟨k, j⟩ := m
      rw [pruneMembers, List.filter_cons, ih]
      split <;> rfl

/-- What is left of the value under a name. -/
def left? (places : List String → Bool) (k : String) (x : Option Json) : Option Json :=
  (x.filter fun j => stays places (k, j)).map (prune fun q => places (k :: q))

theorem left?_of_ne (nonnull : v ≠ null) : left? places k v = v.prune fun q => places (k :: q) := by
  rw [left?, Option.filter_some, if_pos (stays_of_ne nonnull), Option.map_some]

/-- A null is deleted, or stays a null. -/
theorem left?_null (places : List String → Bool) (k : String) :
    left? places k null = none ∨ left? places k null = some null := by
  rw [left?, Option.filter_some]
  split
  · exact .inr rfl
  · exact .inl rfl

theorem get?_pruneMembers (sorted : Members.Sorted ms) (k : String) :
    Members.get? k (pruneMembers places ms) = left? places k (Members.get? k ms) := by
  rw [pruneMembers_eq, Members.get?_mapNamed (fun k j => prune (fun q => places (k :: q)) j),
    Members.get?_filter _ sorted, left?]

theorem sorted_pruneMembers (places : List String → Bool) (sorted : Members.Sorted ms) :
    Members.Sorted (pruneMembers places ms) := by
  rw [pruneMembers_eq]
  exact List.pairwise_map.mpr (List.Pairwise.filter _ sorted)

/-- A value that stays may be put under a name before the nulls are deleted or afterwards. -/
theorem pruneMembers_set (sorted : Members.Sorted ms) (nonnull : v ≠ null) :
    pruneMembers places (Members.set k v ms) =
      Members.set k (v.prune fun q => places (k :: q)) (pruneMembers places ms) := by
  refine Members.eq_of_get? (sorted_pruneMembers places (sorted.set k v))
    ((sorted_pruneMembers places sorted).set k _) fun name => ?_
  rw [get?_pruneMembers (sorted.set k v)]
  by_cases here : name = k
  · subst here
    rw [Members.get?_set_self, Members.get?_set_self, left?_of_ne nonnull]
  · rw [Members.get?_set_of_ne here, Members.get?_set_of_ne here, get?_pruneMembers sorted]

/-- Where there are no nulls and no objects, nothing is deleted. -/
theorem prune_obj_of_flat (flat : ∀ m ∈ ms, m.2 ≠ null ∧ m.2.obj? = none) : (obj ms).prune places = obj ms := by
  rw [prune]
  congr 1
  induction ms with
  | nil => rfl
  | cons m ms ih =>
      obtain ⟨k, j⟩ := m
      obtain ⟨⟨nonnull, plain⟩, rest⟩ := List.forall_mem_cons.mp flat
      rw [pruneMembers, if_pos (stays_of_ne nonnull), ih rest]
      cases j with
      | obj => cases plain
      | null | bool | num | str | arr => rfl

/-! ### Some of the nulls -/

/-- Members that are left when some nulls at the places of a set are deleted. -/
inductive Deletes : (List String → Bool) → List (String × Json) → List (String × Json) → Prop
  | nil (places : List String → Bool) : Deletes places [] []
  | gone {places : List String → Bool} {k : String} {ms ns : List (String × Json)} : places [k] = true →
    Deletes places ms ns → Deletes places ((k, null) :: ms) ns
  | kept {places : List String → Bool} {ms ns : List (String × Json)} (m : String × Json) :
    Deletes places ms ns → Deletes places (m :: ms) (m :: ns)
  | within {places : List String → Bool} {k : String} {inner inner' ms ns : List (String × Json)} :
    Deletes (fun q => places (k :: q)) inner inner' → Deletes places ms ns →
    Deletes places ((k, obj inner) :: ms) ((k, obj inner') :: ns)

/-- The same is left when all of the nulls are deleted. -/
theorem Deletes.pruneMembers_eq (deleted : Deletes places ms ns) : pruneMembers places ns = pruneMembers places ms := by
  induction deleted with
  | nil => rfl
  | gone place _ ih => rw [ih, pruneMembers, if_neg (by simp [stays, place])]
  | kept m _ ih =>
      obtain ⟨k, j⟩ := m
      rw [pruneMembers, pruneMembers, ih]
  | within _ _ inside ih =>
      have nonnull {inner : List (String × Json)} : obj inner ≠ null := fun same => by cases same
      rw [pruneMembers, pruneMembers, if_pos (stays_of_ne nonnull), if_pos (stays_of_ne nonnull), prune, prune, inside, ih]

theorem Deletes.sublist (deleted : Deletes places ms ns) : List.Sublist (ns.map (·.1)) (ms.map (·.1)) := by
  induction deleted with
  | nil => exact .slnil
  | gone _ _ ih => exact ih.cons _
  | kept m _ ih => exact ih.cons_cons _
  | within _ _ _ ih => exact ih.cons_cons _

theorem Deletes.ordered (deleted : Deletes places ms ns) (sorted : Members.Sorted ms) : Members.Sorted ns :=
  List.pairwise_map.mp ((List.pairwise_map.mpr sorted).sublist deleted.sublist)

/-- What is left is in order, if the members were. -/
theorem Deletes.sorted (deleted : Deletes places ms ns) (sorted : (obj ms).Sorted) : (obj ns).Sorted := by
  obtain ⟨ordered, values⟩ := sorted_obj.mp sorted
  refine sorted_obj.mpr ⟨deleted.ordered ordered, ?_⟩
  clear ordered sorted
  induction deleted with
  | nil => exact values
  | gone _ _ ih => exact ih (List.forall_mem_cons.mp values).2
  | kept m _ ih =>
      obtain ⟨first, rest⟩ := List.forall_mem_cons.mp values
      exact List.forall_mem_cons.mpr ⟨first, ih rest⟩
  | within inside _ below ih =>
      obtain ⟨first, rest⟩ := List.forall_mem_cons.mp values
      obtain ⟨ordered, inner⟩ := sorted_obj.mp first
      exact List.forall_mem_cons.mpr ⟨sorted_obj.mpr ⟨inside.ordered ordered, below inner⟩, ih rest⟩

end Json

end Sandbox
