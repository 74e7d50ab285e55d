import Sandbox.Proofs.Json.Fields

/-!
Records with the value of one field left open.

What a decoder makes of a record depends on the value of a field by way of that field
alone, wherever the value stands in an object or a list and whatever stands beside it. So
values that the field accepts can take each other's place (`decoder_fill`), and a record
is refused along with a value that the field refuses (`checked_of_decoder`).
-/

namespace Sandbox

/-- A raw record with one value left open: that of a member, or an item. -/
inductive Opening where
  | member (front : List (RawString × Raw)) (key : RawString) (back : List (RawString × Raw))
      (stop : Option Fault)
  | item (front back : List Raw) (stop : Option Fault)

namespace Opening

/-- The raw record with a value put in. -/
def fill : Opening → Raw → Raw
  | member front key back stop, r => .object (front ++ (key, r) :: back) stop
  | item front back stop, r => .list (front ++ r :: back) stop

/-- The value that is left open is that of the field with a name. -/
def IsOf (fields : List Field) (name : String) : Opening → Prop
  | member _ key _ _ => key.content = .ok name
  | item front _ _ => (fields.map (·.name))[front.length]? = some name

end Opening

namespace Record

variable {α : Type} {r : Record α} {fields : List Field} {src : Source} {seen : List String} {name n : String}
  {k : RawString} {v w : Raw}

/-! ### Members -/

section Members

variable {front back ms : List (RawString × Raw)}

theorem checkMembers_cons_of_content (key : k.content = .ok name) :
    checkMembers fields src seen ((k, v) :: ms) =
      match fields.find? (·.name = name) with
      | none => orFault v.skip >>= fun _ => checkMembers fields src seen ms
      | some field =>
        if name ∈ seen then .error (.duplicateField name)
        else field.check src v >>= fun _ => checkMembers fields src (name :: seen) ms := by
  rw [checkMembers, key]
  rfl

/-- What follows a member is looked at with the same or more names seen. -/
theorem checkMembers_cons_eq_ok (ok : checkMembers fields src seen ((k, v) :: ms) = .ok ()) :
    ∃ m, k.content = .ok m ∧
      (fields.find? (·.name = m) = none ∧ checkMembers fields src seen ms = .ok () ∨
        ∃ field, fields.find? (·.name = m) = some field ∧ m ∉ seen ∧ field.check src v = .ok () ∧
          checkMembers fields src (m :: seen) ms = .ok ()) := by
  cases key : k.content with
  | error f => rw [checkMembers, key] at ok; cases ok
  | ok m =>
      refine ⟨m, rfl, ?_⟩
      rw [checkMembers_cons_of_content key] at ok
      cases found : fields.find? (·.name = m) with
      | none =>
          rw [found] at ok
          obtain ⟨_, -, rest⟩ := bind_eq_ok ok
          exact .inl ⟨rfl, rest⟩
      | some field =>
          rw [found] at ok
          dsimp only at ok
          split at ok
          case isTrue => cases ok
          case isFalse new =>
          obtain ⟨_, checked, rest⟩ := bind_eq_ok ok
          exact .inr ⟨field, rfl, new, checked, rest⟩

theorem find?_of_known (known : name ∈ fields.map (·.name)) :
    ∃ field ∈ fields, fields.find? (·.name = name) = some field ∧ field.name = name := by
  obtain ⟨field, mem, same⟩ := List.mem_map.mp known
  have some : (fields.find? (·.name = name)).isSome := by
    rw [List.find?_isSome]
    exact ⟨field, mem, by simpa using same⟩
  obtain ⟨first, found⟩ := Option.isSome_iff_exists.mp some
  exact ⟨first, List.mem_of_find?_eq_some found, found, by simpa using List.find?_some found⟩

section

variable (known : name ∈ fields.map (·.name)) (key : k.content = .ok name)

include known key

/-- Values that a field accepts are the same to the look at its record. -/
theorem checkMembers_congr (same : ∀ field ∈ fields, field.name = name → field.check src v = field.check src w) :
    checkMembers fields src seen (front ++ (k, v) :: back) =
      checkMembers fields src seen (front ++ (k, w) :: back) := by
  induction front generalizing seen with
  | nil =>
      obtain ⟨field, mem, found, named⟩ := find?_of_known known
      rw [List.nil_append, List.nil_append, checkMembers_cons_of_content key, checkMembers_cons_of_content key]
      simp only [found, same field mem named]
  | cons m front ih =>
      rw [List.cons_append, List.cons_append, checkMembers, checkMembers]
      simp only [ih]

/-- A field that was looked at without objection had not been met before. -/
theorem checkMembers_eq_ok_at (ok : checkMembers fields src seen (front ++ (k, v) :: back) = .ok ()) :
    name ∉ seen ∧ slot front name = none ∧
      ∃ field ∈ fields, field.name = name ∧ field.check src v = .ok () := by
  induction front generalizing seen with
  | nil =>
      obtain ⟨m, content, outcome⟩ := checkMembers_cons_eq_ok ok
      cases key.symm.trans content
      obtain ⟨field, mem, found, named⟩ := find?_of_known known
      rcases outcome with ⟨unknown, -⟩ | ⟨field', found', new, checked, -⟩
      · cases unknown.symm.trans found
      · cases found'.symm.trans found
        exact ⟨new, rfl, field, mem, named, checked⟩
  | cons m front ih =>
      obtain ⟨k', r⟩ := m
      obtain ⟨m, content, outcome⟩ := checkMembers_cons_eq_ok ok
      rcases outcome with ⟨unknown, rest⟩ | ⟨-, -, -, -, rest⟩
      · obtain ⟨new, none, checked⟩ := ih rest
        obtain ⟨field, -, found, -⟩ := find?_of_known known
        have other : m ≠ name := by
          rintro rfl
          cases unknown.symm.trans found
        exact ⟨new, by rw [slot, content]; exact (if_neg other).trans none, checked⟩
      · obtain ⟨new, none, checked⟩ := ih rest
        rw [List.mem_cons, not_or] at new
        exact ⟨new.2, by rw [slot, content]; exact (if_neg (Ne.symm new.1)).trans none, checked⟩

end

theorem slot_append (front ms : List (RawString × Raw)) (n : String) :
    slot (front ++ ms) n = (slot front n).or (slot ms n) := by
  induction front with
  | nil => rfl
  | cons m front ih =>
      obtain ⟨k, v⟩ := m
      rw [List.cons_append, slot, slot]
      split
      · split
        · rfl
        · exact ih
      · exact ih

theorem slot_cons (key : k.content = .ok name) (n : String) :
    slot ((k, v) :: back) n = if name = n then some v else slot back n := by
  rw [slot, key]

end Members

/-! ### Items -/

section Items

variable {front back : List Raw}

theorem checkItems_congr (here : (fields.map (·.name))[front.length]? = some name)
    (same : ∀ field ∈ fields, field.name = name → field.check src v = field.check src w) :
    checkItems src fields (front ++ v :: back) = checkItems src fields (front ++ w :: back) := by
  induction front generalizing fields with
  | nil =>
      cases fields with
      | nil => rfl
      | cons field fields =>
          have named : field.name = name := by simpa using here
          rw [List.nil_append, List.nil_append, checkItems, checkItems, same field List.mem_cons_self named]
  | cons i front ih =>
      cases fields with
      | nil => rfl
      | cons field fields =>
          have there : (fields.map (·.name))[front.length]? = some name := by simpa using here
          have rest := ih there fun f mem => same f (List.mem_cons_of_mem _ mem)
          rw [List.cons_append, List.cons_append, checkItems, checkItems, rest]

theorem checkItems_eq_ok_at (here : (fields.map (·.name))[front.length]? = some name)
    (ok : checkItems src fields (front ++ v :: back) = .ok ()) :
    ∃ field ∈ fields, field.name = name ∧ field.check src v = .ok () := by
  induction front generalizing fields with
  | nil =>
      cases fields with
      | nil => simp at here
      | cons field fields =>
          obtain ⟨_, checked, -⟩ := bind_eq_ok ok
          exact ⟨field, List.mem_cons_self, by simpa using here, checked⟩
  | cons i front ih =>
      cases fields with
      | nil => simp at here
      | cons field fields =>
          obtain ⟨_, -, rest⟩ := bind_eq_ok ok
          have there : (fields.map (·.name))[front.length]? = some name := by simpa using here
          obtain ⟨f, mem, named, checked⟩ := ih there rest
          exact ⟨f, List.mem_cons_of_mem _ mem, named, checked⟩

/-- With different names, the item at a position is found by the name there alone. -/
theorem lookup_zip_append (v w : Raw) (back : List Raw) {names : List String} (nodup : names.Nodup)
    (here : names[front.length]? = some name) :
    (names.zip (front ++ v :: back)).lookup name = some v ∧
      ∀ n, n ≠ name → (names.zip (front ++ v :: back)).lookup n = (names.zip (front ++ w :: back)).lookup n := by
  induction front generalizing names with
  | nil =>
      cases names with
      | nil => simp at here
      | cons m names =>
          have same : m = name := by simpa using here
          subst same
          refine ⟨by simp, fun n ne => ?_⟩
          have apart : (n == m) = false := beq_false_of_ne ne
          simp only [List.nil_append, List.zip_cons_cons, List.lookup_cons, apart]
  | cons i front ih =>
      cases names with
      | nil => simp at here
      | cons m names =>
          obtain ⟨new, nodup⟩ := List.nodup_cons.mp nodup
          have there : names[front.length]? = some name := by simpa using here
          obtain ⟨found, others⟩ := ih nodup there
          have apart : (name == m) = false :=
            beq_false_of_ne fun same => new (same ▸ List.mem_of_getElem? there)
          constructor
          · simp only [List.cons_append, List.zip_cons_cons, List.lookup_cons, apart, found]
          · intro n ne
            simp only [List.cons_append, List.zip_cons_cons, List.lookup_cons, others n ne]

end Items

/-! ### Whole records -/

variable {src' : Source} {o : Opening} {φ : α → α} {type : String} {stop : Option Fault}

theorem decoder_object (entered : src.enter = .ok src') (ms : List (RawString × Raw)) :
    r.decoder type src (.object ms stop) =
      (checkMembers r.fields src' [] ms >>= fun _ =>
        orFault (Raw.outcome stop) >>= fun _ => r.build src' (slot ms) .missingField) := by
  rw [decoder, entered]
  rfl

theorem decoder_list (entered : src.enter = .ok src') (l : List Raw) :
    r.decoder type src (.list l stop) =
      (checkItems src' r.fields l >>= fun _ =>
        if r.fields.length < l.length then .error (surplus src' l.length)
        else
          orFault (Raw.outcome stop) >>= fun _ =>
            r.build src' (fun name => ((r.fields.map (·.name)).zip l).lookup name) fun name =>
              .wrongLength ((r.fields.map (·.name)).idxOf name) (shape type r.fields)) := by
  rw [decoder, entered]
  rfl

/-- A value takes the place of another one that a field accepts as well. Whatever that
changes of what the fields make up it changes of the outcome. -/
theorem decoder_fill (isOf : o.IsOf r.fields name) (known : name ∈ r.fields.map (·.name))
    (nodup : (r.fields.map (·.name)).Nodup)
    (same : ∀ src, ∀ field ∈ r.fields, field.name = name → field.check src v = field.check src w)
    (build : ∀ src (slots slots' : Slots) missing, slots name = some v → slots' name = some w →
      (∀ n, n ≠ name → slots' n = slots n) → r.build src slots' missing = (r.build src slots missing).map φ) :
    r.decoder type src (o.fill w) = (r.decoder type src (o.fill v)).map φ := by
  cases entered : src.enter with
  | error f => cases o <;> simp only [Opening.fill, decoder, entered] <;> rfl
  | ok src' =>
  cases o with
  | member front key back stop =>
      rw [Opening.fill, Opening.fill, decoder_object entered, decoder_object entered,
        checkMembers_congr known isOf (same src')]
      cases checked : checkMembers r.fields src' [] (front ++ (key, w) :: back) with
      | error e => rfl
      | ok u =>
          obtain ⟨-, before, -⟩ := checkMembers_eq_ok_at known isOf checked
          have slots (x : Raw) (n : String) : slot (front ++ (key, x) :: back) n =
              if n = name then some x else (slot front n).or (slot back n) := by
            rw [slot_append, slot_cons isOf]
            by_cases here : n = name
            · rw [here, before, if_pos rfl, if_pos rfl, Option.none_or]
            · rw [if_neg here, if_neg (Ne.symm here)]
          have built := build src' (slot (front ++ (key, v) :: back)) (slot (front ++ (key, w) :: back))
            .missingField ((slots v name).trans (if_pos rfl)) ((slots w name).trans (if_pos rfl))
            fun n ne => by rw [slots, slots, if_neg ne, if_neg ne]
          cases outcome : orFault (Raw.outcome stop) with
          | error e => rfl
          | ok u => exact built
  | item front back stop =>
      rw [Opening.fill, Opening.fill, decoder_list entered, decoder_list entered, checkItems_congr isOf (same src'),
        List.length_append, List.length_append, List.length_cons, List.length_cons]
      cases checkItems src' r.fields (front ++ w :: back) with
      | error e => rfl
      | ok u =>
          obtain ⟨found, -⟩ := lookup_zip_append v w back nodup isOf
          obtain ⟨found', others⟩ := lookup_zip_append w v back nodup isOf
          have built := build src' _ _ (fun n => .wrongLength ((r.fields.map (·.name)).idxOf n) (shape type r.fields))
            found found' others
          dsimp only [bind, Except.bind]
          split
          · rfl
          · cases orFault (Raw.outcome stop) with
            | error e => rfl
            | ok u => exact built

/-- A record is accepted only with a value that its field accepts. -/
theorem checked_of_decoder {a : α} (isOf : o.IsOf r.fields name) (known : name ∈ r.fields.map (·.name))
    (ok : r.decoder type src (o.fill v) = .ok a) :
    ∃ src, ∃ field ∈ r.fields, field.name = name ∧ field.check src v = .ok () := by
  cases o with
  | member front key back stop =>
      obtain ⟨src', -, ok⟩ := bind_eq_ok ok
      obtain ⟨_, checked, -⟩ := bind_eq_ok ok
      exact ⟨src', (checkMembers_eq_ok_at known isOf checked).2.2⟩
  | item front back stop =>
      obtain ⟨src', -, ok⟩ := bind_eq_ok ok
      obtain ⟨_, checked, -⟩ := bind_eq_ok ok
      exact ⟨src', checkItems_eq_ok_at isOf checked⟩

end Record

end Sandbox
