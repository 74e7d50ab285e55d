/-!
The members of an object: a list of named values in increasing order of the names.

`get?` looks a name up and `set` puts a value under a name, in place of the value
there or at the place that the order gives a new name. Names are ordered by their
code points. Main facts: `get?_set_self`, `get?_set_of_ne`, `set_of_get?` (putting
back what is there changes nothing), and `set` keeps the order (`Sorted.set`).
-/

namespace Sandbox.Members

/-- The value under a name. -/
def get? (name : String) : List (String × α) → Option α
  | [] => none
  | (k, a) :: r => if k = name then some a else get? name r

/-- The members with the value under a name replaced, if there is one. -/
def replace (name : String) (a : α) : List (String × α) → List (String × α)
  | [] => []
  | (k, b) :: r => if k = name then (k, a) :: r else (k, b) :: replace name a r

/-- The members with a value under a new name, before the first greater name. -/
def insert (name : String) (a : α) : List (String × α) → List (String × α)
  | [] => [(name, a)]
  | (k, b) :: r => if name < k then (name, a) :: (k, b) :: r else (k, b) :: insert name a r

/-- The members with a value put under a name. -/
def set (name : String) (a : α) (ms : List (String × α)) : List (String × α) :=
  match get? name ms with
  | some _ => replace name a ms
  | none => insert name a ms

/-- The members of a list of named values. Of two under one name the later counts. -/
def ofList (l : List (String × α)) : List (String × α) :=
  l.foldl (fun ms m => set m.1 m.2 ms) []

/-- Every name is below the ones behind it. -/
def Sorted (ms : List (String × α)) : Prop :=
  ms.Pairwise (·.1 < ·.1)

instance (ms : List (String × α)) : Decidable (Sorted ms) :=
  inferInstanceAs (Decidable (List.Pairwise _ _))

@[simp] theorem get?_nil (name : String) : get? name ([] : List (String × α)) = none := rfl

theorem get?_cons (name k : String) (a : α) (r : List (String × α)) :
    get? name ((k, a) :: r) = if k = name then some a else get? name r := rfl

/-! ### What is found after a change -/

private theorem get?_replace_self {name : String} {a b : α} {ms : List (String × α)}
    (h : get? name ms = some b) : get? name (replace name a ms) = some a := by
  induction ms with
  | nil => simp at h
  | cons m r ih =>
    by_cases e : m.1 = name
    · simp [replace, get?, e]
    · rw [get?_cons, if_neg e] at h
      simp [replace, get?, e, ih h]

private theorem get?_insert_self {name : String} (a : α) {ms : List (String × α)}
    (h : get? name ms = none) : get? name (insert name a ms) = some a := by
  induction ms with
  | nil => simp [insert, get?]
  | cons m r ih =>
    by_cases e : m.1 = name
    · simp [get?, e] at h
    · rw [get?_cons, if_neg e] at h
      by_cases lt : name < m.1
      · simp [insert, get?, lt]
      · simp [insert, get?, lt, e, ih h]

private theorem get?_replace_of_ne {name other : String} (h : other ≠ name) (a : α)
    (ms : List (String × α)) : get? other (replace name a ms) = get? other ms := by
  induction ms with
  | nil => rfl
  | cons m r ih =>
    by_cases e : m.1 = name
    · simp [replace, get?, e, Ne.symm h]
    · simp [replace, get?, e, ih]

private theorem get?_insert_of_ne {name other : String} (h : other ≠ name) (a : α)
    (ms : List (String × α)) : get? other (insert name a ms) = get? other ms := by
  induction ms with
  | nil => simp [insert, get?, Ne.symm h]
  | cons m r ih =>
    by_cases lt : name < m.1
    · simp [insert, get?, lt, Ne.symm h]
    · simp [insert, get?, lt, ih]

@[simp] theorem get?_set_self (name : String) (a : α) (ms : List (String × α)) :
    get? name (set name a ms) = some a := by
  rw [set]
  split
  · next h => exact get?_replace_self h
  · next h => exact get?_insert_self a h

theorem get?_set_of_ne {name other : String} (h : other ≠ name) (a : α) (ms : List (String × α)) :
    get? other (set name a ms) = get? other ms := by
  rw [set]
  split
  · exact get?_replace_of_ne h a ms
  · exact get?_insert_of_ne h a ms

/-- Putting back what is there changes nothing. -/
theorem set_of_get? {name : String} {a : α} {ms : List (String × α)} (h : get? name ms = some a) :
    set name a ms = ms := by
  have : replace name a ms = ms := by
    induction ms with
    | nil => rfl
    | cons m r ih =>
      obtain ⟨k, b⟩ := m
      rw [get?_cons] at h
      split at h
      · next e => simp [replace, e, Option.some.inj h]
      · next ne => simp [replace, ne, ih h]
  rw [set, h, this]

/-- Of two values put under one name the later counts. -/
theorem set_set (name : String) (a b : α) (ms : List (String × α)) :
    set name a (set name b ms) = set name a ms := by
  have twice : replace name a (replace name b ms) = replace name a ms := by
    induction ms with
    | nil => rfl
    | cons m r ih => by_cases e : m.1 = name <;> simp [replace, e, ih]
  cases found : get? name ms with
  | some c => simp only [set, found, get?_replace_self found, twice]
  | none =>
    have inserted : replace name a (insert name b ms) = insert name a ms := by
      clear twice
      induction ms with
      | nil => simp [insert, replace]
      | cons m r ih =>
        obtain ⟨k, c⟩ := m
        rw [get?_cons] at found
        split at found
        · cases found
        next e =>
        by_cases lt : name < k
        · simp [insert, replace, lt]
        · simp [insert, replace, lt, e, ih found]
    simp only [set, found, get?_insert_self b found, inserted]

private theorem replace_replace {name other : String} (ne : name ≠ other) (a b : α)
    (ms : List (String × α)) :
    replace name a (replace other b ms) = replace other b (replace name a ms) := by
  induction ms with
  | nil => rfl
  | cons m r ih =>
    by_cases e : m.1 = name
    · simp [replace, e, ne]
    · by_cases e' : m.1 = other
      · simp [replace, e', Ne.symm ne]
      · simp [replace, e, e', ih]

private theorem replace_insert {name other : String} (ne : name ≠ other) (a b : α)
    (ms : List (String × α)) :
    replace name a (insert other b ms) = insert other b (replace name a ms) := by
  induction ms with
  | nil => simp [replace, insert, Ne.symm ne]
  | cons m r ih =>
    obtain ⟨k, c⟩ := m
    by_cases e : k = name
    · subst e
      by_cases lt : other < k <;> simp [replace, insert, lt, Ne.symm ne]
    · by_cases lt : other < k <;> simp [replace, insert, lt, e, Ne.symm ne, ih]

private theorem insert_insert {name other : String} (lt : name < other) (a b : α)
    (ms : List (String × α)) :
    insert name a (insert other b ms) = insert other b (insert name a ms) := by
  have nlt : ¬ other < name := fun back => String.lt_irrefl _ (String.lt_trans lt back)
  induction ms with
  | nil => simp [insert, lt, nlt]
  | cons m r ih =>
    by_cases here : name < m.1
    · by_cases there : other < m.1 <;> simp [insert, here, there, lt, nlt]
    · have there : ¬ other < m.1 := fun before => here (String.lt_trans lt before)
      simp [insert, here, there, ih]

/-- Values may be put under different names in either order. -/
theorem set_comm {name other : String} (ne : name ≠ other) (a b : α) (ms : List (String × α)) :
    set name a (set other b ms) = set other b (set name a ms) := by
  rw [set, get?_set_of_ne ne, set.eq_def other b (set name a ms), get?_set_of_ne (Ne.symm ne)]
  cases here : get? name ms <;> cases there : get? other ms <;> simp only [set, here, there]
  case some.some => exact replace_replace ne a b ms
  case some.none => exact replace_insert ne a b ms
  case none.some => exact (replace_insert (Ne.symm ne) b a ms).symm
  case none.none =>
    by_cases lt : name < other
    · exact insert_insert lt a b ms
    · have lt : other < name := Decidable.byContradiction fun nlt =>
        ne (String.le_antisymm (String.not_lt.1 nlt) (String.not_lt.1 lt))
      exact (insert_insert lt b a ms).symm

/-- Of two values that are given one name the later is found. -/
theorem get?_ofList (name : String) (l : List (String × α)) : get? name (ofList l) = get? name l.reverse := by
  rw [ofList, List.foldl_eq_foldr_reverse]
  induction l.reverse with
  | nil => rfl
  | cons m r ih =>
    rw [List.foldr_cons, get?_cons]
    by_cases e : m.1 = name
    · rw [e, get?_set_self, if_pos rfl]
    · rw [get?_set_of_ne (Ne.symm e), if_neg e, ih]

/-! ### Order -/

private theorem map_fst_replace (name : String) (a : α) (ms : List (String × α)) :
    (replace name a ms).map (·.1) = ms.map (·.1) := by
  induction ms with
  | nil => rfl
  | cons m r ih =>
    simp only [replace]
    split <;> simp [ih]

private theorem sorted_iff_map (ms : List (String × α)) :
    Sorted ms ↔ (ms.map (·.1)).Pairwise (· < ·) :=
  List.pairwise_map.symm

private theorem mem_insert {name : String} {a : α} {ms : List (String × α)} {m : String × α}
    (h : m ∈ insert name a ms) : m = (name, a) ∨ m ∈ ms := by
  induction ms with
  | nil => simpa [insert] using h
  | cons n r ih =>
    simp only [insert] at h
    split at h
    · simpa using h
    · rcases List.mem_cons.1 h with rfl | h
      · exact .inr List.mem_cons_self
      · exact (ih h).imp_right (List.mem_cons_of_mem _)

private theorem Sorted.insert {name : String} {ms : List (String × α)} (h : Sorted ms)
    (new : get? name ms = none) (a : α) : Sorted (Members.insert name a ms) := by
  induction ms with
  | nil => simp [Members.insert, Sorted]
  | cons m r ih =>
    obtain ⟨k, b⟩ := m
    have ⟨first, rest⟩ := List.pairwise_cons.1 h
    rw [get?_cons] at new
    split at new
    · cases new
    next ne =>
    simp only [Members.insert]
    split
    · next lt =>
      refine List.pairwise_cons.2 ⟨fun m hm => ?_, h⟩
      rcases List.mem_cons.1 hm with rfl | hm
      · exact lt
      · exact String.lt_trans lt (first m hm)
    · next ge =>
      refine List.pairwise_cons.2 ⟨fun m hm => ?_, ih rest new⟩
      rcases mem_insert hm with rfl | hm
      · exact Decidable.byContradiction fun nlt =>
          ne (String.le_antisymm (String.not_lt.1 ge) (String.not_lt.1 nlt))
      · exact first m hm

/-- Putting a value under a name keeps the order. -/
theorem Sorted.set {ms : List (String × α)} (h : Sorted ms) (name : String) (a : α) :
    Sorted (Members.set name a ms) := by
  rw [Members.set]
  split
  · rw [sorted_iff_map, map_fst_replace, ← sorted_iff_map]
    exact h
  · next new => exact h.insert new a

private theorem mem_replace {name : String} {a : α} {ms : List (String × α)} {m : String × α}
    (h : m ∈ replace name a ms) : m = (name, a) ∨ m ∈ ms := by
  induction ms with
  | nil => cases h
  | cons n r ih =>
    simp only [replace] at h
    split at h
    · next e =>
      rcases List.mem_cons.1 h with rfl | h
      · exact .inl (by rw [e])
      · exact .inr (List.mem_cons_of_mem _ h)
    · rcases List.mem_cons.1 h with rfl | h
      · exact .inr List.mem_cons_self
      · exact (ih h).imp_right (List.mem_cons_of_mem _)

/-- Putting a value under a name brings in no other member. -/
theorem mem_set {name : String} {a : α} {ms : List (String × α)} {m : String × α}
    (h : m ∈ set name a ms) : m = (name, a) ∨ m ∈ ms := by
  rw [set] at h
  split at h
  · exact mem_replace h
  · exact mem_insert h

theorem mem_ofList {l : List (String × α)} {m : String × α} (h : m ∈ ofList l) : m ∈ l := by
  suffices ∀ ms, m ∈ l.foldl (fun ms m => set m.1 m.2 ms) ms → m ∈ ms ∨ m ∈ l from
    (this [] h).resolve_left List.not_mem_nil
  clear h
  induction l with
  | nil => exact fun _ h => .inl h
  | cons n l ih =>
    intro ms h
    rcases ih _ h with h | h
    · rcases mem_set h with rfl | h
      · exact .inr List.mem_cons_self
      · exact .inl h
    · exact .inr (List.mem_cons_of_mem _ h)

/-- The members of any list are in order. -/
theorem sorted_ofList (l : List (String × α)) : Sorted (ofList l) := by
  suffices ∀ ms, Sorted ms → Sorted (l.foldl (fun ms m => Members.set m.1 m.2 ms) ms) from
    this [] List.Pairwise.nil
  induction l with
  | nil => exact fun _ h => h
  | cons m l ih => exact fun _ h => ih _ (h.set m.1 m.2)

private theorem set_of_lt {name : String} {a : α} {ms : List (String × α)}
    (h : ∀ m ∈ ms, m.1 < name) : set name a ms = ms ++ [(name, a)] := by
  have new : get? name ms = none := by
    induction ms with
    | nil => rfl
    | cons m r ih =>
      have ne : m.1 ≠ name := fun e => String.lt_irrefl _ (e ▸ h m List.mem_cons_self)
      rw [get?_cons, if_neg ne]
      exact ih fun m hm => h m (List.mem_cons_of_mem _ hm)
  rw [set, new]
  dsimp only
  clear new
  induction ms with
  | nil => rfl
  | cons m r ih =>
    have nlt : ¬ name < m.1 := fun lt => String.lt_irrefl _ (String.lt_trans lt (h m List.mem_cons_self))
    rw [insert, if_neg nlt, ih fun m hm => h m (List.mem_cons_of_mem _ hm)]
    rfl

/-- Members in order are made from themselves. -/
theorem ofList_of_sorted {ms : List (String × α)} (h : Sorted ms) : ofList ms = ms := by
  suffices ∀ front, Sorted (front ++ ms) → ms.foldl (fun ms m => set m.1 m.2 ms) front = front ++ ms from
    this [] h
  clear h
  induction ms with
  | nil => simp
  | cons m r ih =>
    intro front h
    have below := (List.pairwise_append.1 h).2.2
    rw [List.foldl_cons, set_of_lt fun n hn => below n hn m List.mem_cons_self, ih]
    · simp
    · simpa using h

end Sandbox.Members
