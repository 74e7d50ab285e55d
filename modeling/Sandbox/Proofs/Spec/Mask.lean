import Sandbox.Proofs.Spec.Update

/-!
Documents that differ in some places only.

A mask says of every place of a document whether two documents have the same value
there (`Mask.same`), whatever values they like (`Mask.any`), objects of lists with
whatever items (`Mask.sets`), or sections that are compared member by member
(`Mask.within`). Writing to a place of the third kind aside, a step that is taken in
both documents keeps them alike (`Alike.both`), and so does a step in one of them
that writes where the mask leaves it free (`Alike.left`).
-/

namespace Sandbox

open Section

/-- Where two documents may differ. -/
inductive Mask where
  | same
  | any
  | sets
  | within (mask : String → Mask)

namespace Mask

/-- Two values are alike as far as a mask demands. A section that is missing is like
an empty one. -/
def Rel : Mask → Option Json → Option Json → Prop
  | same, x, y => x = y
  | any, _, _ => True
  | sets, x, y => x = y ∨ ∃ ms ns, x = some (.obj ms) ∧ y = some (.obj ns) ∧
      ∀ k, Members.get? k ms = Members.get? k ns ∨
        ∃ l m, Members.get? k ms = some (.arr l) ∧ Members.get? k ns = some (.arr m)
  | within f, x, y => x = y ∨ ∃ ms ns, members? x = some ms ∧ members? y = some ns ∧
      ∀ k, (f k).Rel (Members.get? k ms) (Members.get? k ns)

/-- The mask that a path leads to. What is in sets has none of its own. -/
def after? : Mask → List String → Option Mask
  | m, [] => some m
  | same, _ :: _ => some same
  | any, _ :: _ => some any
  | sets, _ :: _ => none
  | within f, k :: ks => (f k).after? ks

@[simp] theorem after?_nil (m : Mask) : m.after? [] = some m := by
  cases m <;> rfl

@[simp] theorem after?_same (path : List String) : same.after? path = some same := by
  cases path <;> rfl

@[simp] theorem after?_within (f : String → Mask) (k : String) (ks : List String) :
    (within f).after? (k :: ks) = (f k).after? ks := rfl

theorem Rel.refl (m : Mask) (x : Option Json) : m.Rel x x := by
  cases m with
  | same => rfl
  | any => trivial
  | sets | within f => exact .inl rfl

theorem Rel.symm {m : Mask} {x y : Option Json} (h : m.Rel x y) : m.Rel y x := by
  induction m generalizing x y with
  | same => exact Eq.symm h
  | any => trivial
  | sets =>
      rcases h with rfl | ⟨ms, ns, left, right, members⟩
      · exact .inl rfl
      · refine .inr ⟨ns, ms, right, left, ?_⟩
        intro k
        rcases members k with equal | ⟨l, m, inLeft, inRight⟩
        · exact .inl equal.symm
        · exact .inr ⟨m, l, inRight, inLeft⟩
  | within f ih =>
      rcases h with rfl | ⟨ms, ns, left, right, members⟩
      · exact .inl rfl
      · exact .inr ⟨ns, ms, right, left, fun k => ih k (members k)⟩

/-- What a path leads to is alike as far as the mask there demands. -/
theorem Rel.bind_value? {m m' : Mask} {x y : Option Json} {path : List String} (h : m.Rel x y)
    (demands : m.after? path = some m') :
    m'.Rel (x.bind (Json.value? path)) (y.bind (Json.value? path)) := by
  induction m generalizing x y path with
  | same =>
      rw [after?_same] at demands
      cases demands
      rw [show x = y from h]
      rfl
  | any =>
      cases path <;> cases demands <;> trivial
  | sets =>
      cases path with
      | nil => cases demands; simpa [Json.value?] using h
      | cons k ks => cases demands
  | within f ih =>
      cases path with
      | nil => cases demands; simpa [Json.value?] using h
      | cons k ks =>
          rcases h with rfl | ⟨ms, ns, left, right, members⟩
          · exact .refl _ _
          · rw [bind_value?_of_members? left, bind_value?_of_members? right]
            exact ih k (members k) demands

end Mask

/-- Two documents are alike, member by member. -/
def Alike (f : String → Mask) (ms ns : List (String × Json)) : Prop :=
  ∀ k, (f k).Rel (Members.get? k ms) (Members.get? k ns)

namespace Alike

variable {f : String → Mask} {ms ms' ns ns' : List (String × Json)} {path : List String}
  {change : Option Json → Option Json}

theorem refl (f : String → Mask) (ms : List (String × Json)) : Alike f ms ms :=
  fun k => .refl (f k) _

theorem symm (h : Alike f ms ns) : Alike f ns ms :=
  fun k => (h k).symm

/-- Values that are alike may be put under a name in both documents. -/
theorem set (h : Alike f ms ns) {name : String} {v w : Json} (values : (f name).Rel (some v) (some w)) :
    Alike f (Members.set name v ms) (Members.set name w ns) := by
  intro k
  by_cases here : k = name
  · rw [here, Members.get?_set_self, Members.get?_set_self]
    exact values
  · rw [Members.get?_set_of_ne here, Members.get?_set_of_ne here]
    exact h k

theorem set_left (h : Alike f ms ns) {name : String} {v : Json}
    (value : (f name).Rel (some v) (Members.get? name ns)) : Alike f (Members.set name v ms) ns := by
  intro k
  by_cases here : k = name
  · rw [here, Members.get?_set_self]
    exact value
  · rw [Members.get?_set_of_ne here]
    exact h k

/-- What a section holds is alike. -/
theorem members {g : String → Mask} {k : String} {inner inner' : List (String × Json)} (h : Alike f ms ns)
    (mask : f k = .within g) (left : members? (Members.get? k ms) = some inner)
    (right : members? (Members.get? k ns) = some inner') : Alike g inner inner' := by
  have here := h k
  rw [mask] at here
  rcases here with equal | ⟨_, _, left', right', inside⟩
  · rw [equal, right] at left
    cases left
    exact refl g inner
  · cases left.symm.trans left'
    cases right.symm.trans right'
    exact inside

/-- A step in one document that writes to a free place. -/
theorem left (h : Alike f ms ns) (run : Updates change path ms ms')
    (free : (Mask.within f).after? path = some .any) :
    Alike f ms' ns := by
  induction run generalizing f ns with
  | @here k ms v made =>
      have mask : f k = .any := by simpa using free
      exact h.set_left (by rw [mask]; trivial)
  | @inside k ks ms inner inner' found run ih =>
      refine h.set_left ?_
      have free : (f k).after? ks = some .any := free
      cases mask : f k with
      | same => simp [mask] at free
      | sets => rw [mask] at free; cases ks <;> cases free
      | any => trivial
      | within g =>
          rw [mask] at free
          have here := h k
          rw [mask] at here
          rcases here with equal | ⟨_, other, left, right, inside⟩
          · rw [equal] at found
            exact .inr ⟨_, _, rfl, found, ih (refl g inner) free⟩
          · cases found.symm.trans left
            exact .inr ⟨_, _, rfl, right, ih inside free⟩

/-- A step in both documents, to a place that is not of sets. -/
theorem both (h : Alike f ms ns) (run : Updates change path ms ms') (run' : Updates change path ns ns')
    (plain : (Mask.within f).after? path = some .same ∨ (Mask.within f).after? path = some .any) :
    Alike f ms' ns' := by
  induction run generalizing f ns ns' with
  | @here k ms v made =>
      cases run' with
      | inside _ deeper => cases deeper
      | here made' =>
          have plain : f k = .same ∨ f k = .any := by simpa using plain
          refine h.set ?_
          rcases plain with mask | mask
          · have equal := h k
            rw [mask] at equal ⊢
            rw [show Members.get? k ms = _ from equal] at made
            exact made.symm.trans made'
          · rw [mask]
            trivial
  | @inside k ks ms inner inner' found run ih =>
      cases run' with
      | here => cases run
      | @inside _ _ _ other other' found' run' =>
          refine h.set ?_
          have plain : (f k).after? ks = some .same ∨ (f k).after? ks = some .any := plain
          cases mask : f k with
          | same =>
              have equal := h k
              rw [mask] at equal
              rw [show Members.get? k ms = _ from equal, found'] at found
              cases found
              rw [run.unique run']
              rfl
          | sets => rw [mask] at plain; cases ks <;> simp [Mask.after?] at plain
          | any => trivial
          | within g =>
              rw [mask] at plain
              exact .inr ⟨_, _, rfl, rfl, ih (h.members mask found found') run' plain⟩

end Alike

end Sandbox
