import Mathlib.Data.List.Basic
import Sandbox.Json.Reader

/-!
Documents and the raw values that stand for them.

A raw value stands for a document whose members are in order and which is no deeper than
its source admits (`Raw.toJson_eq_ok`), and so does a text (`Json.parse_eq_ok`). Each such
document is what the raw value made of it stands for (`Raw.toJson_ofJson`).
-/

namespace Sandbox

theorem bind_eq_ok {ε α β : Type} {x : Except ε α} {f : α → Except ε β} {b : β}
    (ok : (x >>= f) = .ok b) : ∃ a, x = .ok a ∧ f a = .ok b := by
  cases x with
  | error e => cases ok
  | ok a => exact ⟨a, rfl, ok⟩

theorem mapError_eq_ok_iff {ε ε' α : Type} {x : Except ε α} {f : ε → ε'} {a : α} :
    x.mapError f = .ok a ↔ x = .ok a := by
  cases x with
  | error e => exact ⟨nofun, nofun⟩
  | ok b => simp [Except.mapError]

namespace Json

/-- What a list has from its items, and an object from its values, every document has. -/
@[induction_eliminator]
theorem induction {P : Json → Prop} (null : P .null) (bool : ∀ b, P (.bool b)) (num : ∀ n, P (.num n))
    (str : ∀ s, P (.str s)) (arr : ∀ l, (∀ j ∈ l, P j) → P (.arr l))
    (obj : ∀ ms, (∀ m ∈ ms, P m.2) → P (.obj ms)) (j : Json) : P j := by
  refine @Json.rec P (fun l => ∀ j ∈ l, P j) (fun ms => ∀ m ∈ ms, P m.2) (fun m => P m.2)
    null bool num str arr obj (List.forall_mem_nil _) ?_ (List.forall_mem_nil _) ?_ (fun _ _ value => value) j
  · exact fun _ _ first rest => List.forall_mem_cons.mpr ⟨first, rest⟩
  · exact fun _ _ first rest => List.forall_mem_cons.mpr ⟨first, rest⟩

variable {l : List Json} {ms : List (String × Json)}

theorem sortedItems_iff : SortedItems l ↔ ∀ j ∈ l, j.Sorted := by
  induction l with
  | nil => simp [SortedItems]
  | cons j l ih => rw [SortedItems, ih, List.forall_mem_cons]

theorem sortedMembers_iff : SortedMembers ms ↔ ∀ m ∈ ms, m.2.Sorted := by
  induction ms with
  | nil => simp [SortedMembers]
  | cons m ms ih => rw [SortedMembers, ih, List.forall_mem_cons]

@[simp] theorem sorted_arr : (arr l).Sorted ↔ ∀ j ∈ l, j.Sorted := by
  rw [Sorted, sortedItems_iff]

@[simp] theorem sorted_obj : (obj ms).Sorted ↔ Members.Sorted ms ∧ ∀ m ∈ ms, m.2.Sorted := by
  rw [Sorted, sortedMembers_iff]

/-! ### Depth -/

mutual

/-- How deep lists and objects stand within each other in a document. -/
def depth : Json → Nat
  | arr l => depthItems l + 1
  | obj ms => depthMembers ms + 1
  | _ => 0

@[inherit_doc depth]
def depthItems : List Json → Nat
  | [] => 0
  | j :: l => max j.depth (depthItems l)

@[inherit_doc depth]
def depthMembers : List (String × Json) → Nat
  | [] => 0
  | (_, j) :: l => max j.depth (depthMembers l)

end

theorem depthItems_le_iff {d : Nat} : depthItems l ≤ d ↔ ∀ j ∈ l, j.depth ≤ d := by
  induction l with
  | nil => simp [depthItems]
  | cons j l ih => rw [depthItems, Nat.max_le, ih, List.forall_mem_cons]

theorem depthMembers_le_iff {d : Nat} : depthMembers ms ≤ d ↔ ∀ m ∈ ms, m.2.depth ≤ d := by
  induction ms with
  | nil => simp [depthMembers]
  | cons m ms ih => rw [depthMembers, Nat.max_le, ih, List.forall_mem_cons]

end Json

/-- A document is no deeper than a source allows. -/
def Source.Admits : Source → Json → Prop
  | text depth, j => j.depth ≤ depth
  | tree, _ => True

namespace Raw

variable {src : Source} {j : Json} {l : List Json} {ms : List (String × Json)}

theorem admits_arr_iff :
    src.Admits (.arr l) ↔ ∃ inner, src.enter = .ok inner ∧ ∀ j ∈ l, inner.Admits j := by
  cases src with
  | tree => simp [Source.Admits, Source.enter]
  | text depth =>
      cases depth with
      | zero => simp [Source.Admits, Source.enter, Json.depth]
      | succ depth => simp [Source.Admits, Source.enter, Json.depth, Json.depthItems_le_iff]

theorem admits_obj_iff :
    src.Admits (.obj ms) ↔ ∃ inner, src.enter = .ok inner ∧ ∀ m ∈ ms, inner.Admits m.2 := by
  cases src with
  | tree => simp [Source.Admits, Source.enter]
  | text depth =>
      cases depth with
      | zero => simp [Source.Admits, Source.enter, Json.depth]
      | succ depth => simp [Source.Admits, Source.enter, Json.depth, Json.depthMembers_le_iff]

/-! ### From a raw value to a document -/

mutual

/-- The document of a raw value is in order, and the source admits it. -/
theorem toJson_eq_ok {src : Source} {j : Json} : (r : Raw) → r.toJson src = .ok j → j.Sorted ∧ src.Admits j
  | null, ok | bool _, ok | number (some _), ok => by
      cases ok
      cases src <;> simp [Json.Sorted, Source.Admits, Json.depth]
  | string _, ok => by
      obtain ⟨_, -, made⟩ := bind_eq_ok ok
      cases made
      cases src <;> simp [Json.Sorted, Source.Admits, Json.depth]
  | list l _, ok => by
      obtain ⟨inner, entered, ok⟩ := bind_eq_ok ok
      obtain ⟨items, read, ok⟩ := bind_eq_ok ok
      obtain ⟨_, -, made⟩ := bind_eq_ok ok
      cases made
      have each := toItems_eq_ok l read
      exact ⟨Json.sorted_arr.mpr fun j mem => (each j mem).1,
        admits_arr_iff.mpr ⟨inner, entered, fun j mem => (each j mem).2⟩⟩
  | object ms _, ok => by
      obtain ⟨inner, entered, ok⟩ := bind_eq_ok ok
      obtain ⟨members, read, ok⟩ := bind_eq_ok ok
      obtain ⟨_, -, made⟩ := bind_eq_ok ok
      cases made
      have each := fun m mem => toMembers_eq_ok ms read m (Members.mem_ofList mem)
      exact ⟨Json.sorted_obj.mpr ⟨Members.sorted_ofList members, fun m mem => (each m mem).1⟩,
        admits_obj_iff.mpr ⟨inner, entered, fun m mem => (each m mem).2⟩⟩

@[inherit_doc toJson_eq_ok]
theorem toItems_eq_ok {src : Source} {items : List Json} :
    (l : List Raw) → toItems src l = .ok items → ∀ j ∈ items, j.Sorted ∧ src.Admits j
  | [], ok => by
      cases ok
      exact List.forall_mem_nil _
  | r :: l, ok => by
      obtain ⟨j, first, ok⟩ := bind_eq_ok ok
      obtain ⟨rest, read, made⟩ := bind_eq_ok ok
      cases made
      exact List.forall_mem_cons.mpr ⟨toJson_eq_ok r first, toItems_eq_ok l read⟩

@[inherit_doc toJson_eq_ok]
theorem toMembers_eq_ok {src : Source} {members : List (String × Json)} :
    (ms : List (RawString × Raw)) → toMembers src ms = .ok members →
      ∀ m ∈ members, m.2.Sorted ∧ src.Admits m.2
  | [], ok => by
      cases ok
      exact List.forall_mem_nil _
  | (k, r) :: ms, ok => by
      obtain ⟨name, -, ok⟩ := bind_eq_ok ok
      obtain ⟨j, first, ok⟩ := bind_eq_ok ok
      obtain ⟨rest, read, made⟩ := bind_eq_ok ok
      cases made
      exact List.forall_mem_cons.mpr ⟨toJson_eq_ok r first, toMembers_eq_ok ms read⟩

end

/-! ### From a document to a raw value, and back -/

theorem ofItems_eq_map (l : List Json) : ofItems l = l.map ofJson := by
  induction l with
  | nil => rfl
  | cons j l ih => rw [ofItems, ih, List.map_cons]

theorem toItems_ofItems (all : ∀ j ∈ l, (ofJson j).toJson src = .ok j) : toItems src (ofItems l) = .ok l := by
  induction l with
  | nil => rfl
  | cons j l ih =>
      obtain ⟨first, rest⟩ := List.forall_mem_cons.mp all
      rw [ofItems, toItems, first, ih rest]
      rfl

theorem toMembers_ofMembers (all : ∀ m ∈ ms, (ofJson m.2).toJson src = .ok m.2) :
    toMembers src (ofMembers ms) = .ok ms := by
  induction ms with
  | nil => rfl
  | cons m ms ih =>
      obtain ⟨first, rest⟩ := List.forall_mem_cons.mp all
      rw [ofMembers, toMembers, first, ih rest]
      rfl

/-- A document in order that the source admits stands for itself. -/
theorem toJson_ofJson (sorted : j.Sorted) (admitted : src.Admits j) : (ofJson j).toJson src = .ok j := by
  induction j generalizing src with
  | null | bool | num | str => rfl
  | arr l ih =>
      obtain ⟨inner, entered, all⟩ := admits_arr_iff.mp admitted
      rw [Json.sorted_arr] at sorted
      rw [ofJson, toJson, entered]
      change (toItems inner (ofItems l) >>= _) = _
      rw [toItems_ofItems fun j mem => ih j mem (sorted j mem) (all j mem)]
      rfl
  | obj ms ih =>
      obtain ⟨inner, entered, all⟩ := admits_obj_iff.mp admitted
      obtain ⟨ordered, values⟩ := Json.sorted_obj.mp sorted
      rw [ofJson, toJson, entered]
      change (toMembers inner (ofMembers ms) >>= _) = _
      rw [toMembers_ofMembers fun m mem => ih m mem (values m mem) (all m mem)]
      change Except.ok (Json.obj (Members.ofList ms)) = _
      rw [Members.ofList_of_sorted ordered]

/-- Nothing is wrong with a document that is passed over. -/
theorem skip_ofJson (j : Json) : (ofJson j).skip = .ok () := by
  induction j with
  | null | bool | num | str => rfl
  | arr l ih =>
      have items : skipItems (ofItems l) = .ok () := by
        induction l with
        | nil => rfl
        | cons j l ihl =>
            obtain ⟨first, rest⟩ := List.forall_mem_cons.mp ih
            rw [ofItems, skipItems, first]
            exact ihl rest
      rw [ofJson, skip, items]
      rfl
  | obj ms ih =>
      have members : skipMembers (ofMembers ms) = .ok () := by
        induction ms with
        | nil => rfl
        | cons m ms ihm =>
            obtain ⟨first, rest⟩ := List.forall_mem_cons.mp ih
            rw [ofMembers, skipMembers, first]
            exact ihm rest
      rw [ofJson, skip, members]
      rfl

end Raw

/-- A text that can be read is a document in order that is not too deep. -/
theorem Json.parse_eq_ok {bytes : List UInt8} {j : Json} (ok : parse bytes = .ok j) :
    j.Sorted ∧ j.depth ≤ depthLimit := by
  unfold parse at ok
  dsimp only at ok
  split at ok
  case h_1 => cases ok
  case h_2 k made =>
  split at ok
  case isTrue => cases ok
  case isFalse =>
  cases ok
  exact Raw.toJson_eq_ok _ made

end Sandbox
