import Sandbox.Json.Record
import Sandbox.Proofs.Json.Tree

/-!
Records on documents.

Changing each value of a record by the name of its field changes what the record stands
for, be the fields named or listed (`Record.Changes.decoder`). An object in order whose
values pass the checks of their fields is a record made from these values, whatever else
it holds (`Record.decoder_obj`).
-/

namespace Sandbox

namespace Members

variable {α β : Type} {name : String} {ms : List (String × α)}

theorem get?_mapNamed (f : String → α → β) (name : String) (ms : List (String × α)) :
    get? name (ms.map fun m => (m.1, f m.1 m.2)) = (get? name ms).map (f name) := by
  induction ms with
  | nil => rfl
  | cons m ms ih =>
      rw [List.map_cons, get?_cons, get?_cons, ih]
      split
      case isTrue same => rw [same, Option.map_some]
      case isFalse => rfl

theorem mem_of_get? {a : α} (found : get? name ms = some a) : (name, a) ∈ ms := by
  induction ms with
  | nil => cases found
  | cons m ms ih =>
      rw [get?_cons] at found
      split at found
      case isTrue same =>
        cases found
        rw [← same]
        exact List.mem_cons_self
      case isFalse => exact List.mem_cons_of_mem m (ih found)

theorem get?_eq_none_of_lt (below : ∀ m ∈ ms, name < m.1) : get? name ms = none := by
  rw [Option.eq_none_iff_forall_ne_some]
  intro a found
  exact String.lt_irrefl name (below _ (mem_of_get? found))

/-- Of members in order, those that are kept are found as before, and no others. -/
theorem get?_filter (keep : String × α → Bool) (sorted : Sorted ms) :
    get? name (ms.filter keep) = (get? name ms).filter fun a => keep (name, a) := by
  induction ms with
  | nil => rfl
  | cons m ms ih =>
      obtain ⟨below, sorted⟩ := List.pairwise_cons.mp sorted
      rw [List.filter_cons, get?_cons]
      by_cases same : m.1 = name
      · subst same
        have behind : get? m.1 (ms.filter keep) = none := by
          rw [ih sorted, get?_eq_none_of_lt below, Option.filter_none]
        by_cases kept : keep m = true
        · rw [if_pos kept, if_pos rfl, get?_cons, if_pos rfl, Option.filter_some, if_pos kept]
        · rw [if_neg kept, if_pos rfl, behind, Option.filter_some, if_neg kept]
      · rw [if_neg same]
        split
        · rw [get?_cons, if_neg same, ih sorted]
        · exact ih sorted

end Members

namespace Json

/-- The items of a list that are kept. -/
def filterItems (keep : Json → Bool) : Json → Json
  | arr l => arr (l.filter keep)
  | j => j

/-- Items changed by the names that they have by their position. -/
def mapListed (f : String → Json → Json) : List String → List Json → List Json
  | name :: names, j :: l => f name j :: mapListed f names l
  | _, l => l

/-- A record with each value changed by the name of its field. The names tell the fields
of a list apart. -/
def mapFields (names : List String) (f : String → Json → Json) : Json → Json
  | obj ms => obj (ms.map fun m => (m.1, f m.1 m.2))
  | arr l => arr (mapListed f names l)
  | j => j

theorem length_mapListed (f : String → Json → Json) (names : List String) (l : List Json) :
    (mapListed f names l).length = l.length := by
  induction names generalizing l with
  | nil => cases l <;> rfl
  | cons name names ih =>
      cases l with
      | nil => rfl
      | cons j l => rw [mapListed, List.length_cons, ih, List.length_cons]

theorem lookup_zip_mapListed (f : String → Json → Json) (names : List String) (l : List Json) (name : String) :
    (names.zip (mapListed f names l)).lookup name = ((names.zip l).lookup name).map (f name) := by
  induction names generalizing l with
  | nil => rfl
  | cons first names ih =>
      cases l with
      | nil => rfl
      | cons j l =>
          rw [mapListed, List.zip_cons_cons, List.zip_cons_cons, List.lookup_cons, List.lookup_cons, ih]
          split
          case h_1 same => rw [eq_of_beq same, Option.map_some]
          case h_2 => rfl

end Json

namespace Decoder

variable {α : Type} {d : Decoder α} {keep : Json → Bool} {kept : α → Bool} {j : Json} {l : List Json}

theorem each_cons_of_error {each' : Raw → Except DecodeError α} {r : Raw} {rs : List Raw} {e : DecodeError}
    (bad : each' r = .error e) : each each' (r :: rs) = .error e := by
  rw [each, bad]
  rfl

theorem each_cons_of_ok {each' : Raw → Except DecodeError α} {r : Raw} {rs : List Raw} {a : α}
    (good : each' r = .ok a) : each each' (r :: rs) = (each each' rs).map (a :: ·) := by
  rw [each, good]
  cases each each' rs <;> rfl

/-- Items that are no values are kept, so the first of them is met as before. -/
theorem each_filter (good : ∀ j ∈ l, ∀ a, d .tree (.ofJson j) = .ok a → keep j = kept a)
    (bad : ∀ j ∈ l, ∀ e, d .tree (.ofJson j) = .error e → keep j = true) :
    each (d .tree) (Raw.ofItems (l.filter keep)) =
      (each (d .tree) (Raw.ofItems l)).map (·.filter kept) := by
  induction l with
  | nil => rfl
  | cons j l ih =>
      obtain ⟨good, goods⟩ := List.forall_mem_cons.mp good
      obtain ⟨bad, bads⟩ := List.forall_mem_cons.mp bad
      have rest := ih goods bads
      rw [List.filter_cons, Raw.ofItems]
      cases decoded : d .tree (.ofJson j) with
      | error e =>
          rw [if_pos (bad e decoded), Raw.ofItems, each_cons_of_error decoded, each_cons_of_error decoded]
          rfl
      | ok a =>
          rw [each_cons_of_ok decoded]
          by_cases keeps : keep j = true
          · have keeps' : kept a = true := good a decoded ▸ keeps
            rw [if_pos keeps, Raw.ofItems, each_cons_of_ok decoded, rest]
            cases each (d .tree) (Raw.ofItems l) with
            | error e => rfl
            | ok as => simp only [Except.map, List.filter_cons_of_pos keeps']
          · have drops : ¬ kept a = true := good a decoded ▸ keeps
            rw [if_neg keeps, rest]
            cases each (d .tree) (Raw.ofItems l) with
            | error e => rfl
            | ok as => simp only [Except.map, List.filter_cons_of_neg drops]

theorem list_ofJson (d : Decoder α) (l : List Json) :
    Decoder.list d .tree (.ofJson (.arr l)) = each (d .tree) (Raw.ofItems l) := by
  change (each (d .tree) (Raw.ofItems l) >>= fun as => Except.ok as) = _
  cases each (d .tree) (Raw.ofItems l) <;> rfl

/-- A list of the items that are kept holds those of its values that are. -/
theorem list_filterItems (sorted : j.Sorted)
    (good : ∀ j a, j.Sorted → d .tree (.ofJson j) = .ok a → keep j = kept a)
    (bad : ∀ j e, j.Sorted → d .tree (.ofJson j) = .error e → keep j = true) :
    Decoder.list d .tree (.ofJson (j.filterItems keep)) =
      (Decoder.list d .tree (.ofJson j)).map (·.filter kept) := by
  cases j with
  | arr l =>
      rw [Json.filterItems, list_ofJson, list_ofJson]
      have items := Json.sorted_arr.mp sorted
      exact each_filter (fun j mem a => good j a (items j mem)) fun j mem e => bad j e (items j mem)
  | null | bool | num | str | obj => rfl

end Decoder

namespace Record

variable {α : Type} {r : Record α} {fields : List Field} {j : Json} {l : List Json} {ms : List (String × Json)}

theorem slot_ofMembers (ms : List (String × Json)) (name : String) :
    slot (Raw.ofMembers ms) name = (Members.get? name ms).map .ofJson := by
  induction ms with
  | nil => rfl
  | cons m ms ih =>
      rw [Raw.ofMembers, slot, Members.get?_cons, ih]
      dsimp only [Raw.ofString]
      split <;> rfl

theorem lookup_zip_ofItems (names : List String) (l : List Json) (name : String) :
    (names.zip (Raw.ofItems l)).lookup name = ((names.zip l).lookup name).map .ofJson := by
  rw [Raw.ofItems_eq_map]
  induction names generalizing l with
  | nil => rfl
  | cons first names ih =>
      cases l with
      | nil => rfl
      | cons j l =>
          rw [List.map_cons, List.zip_cons_cons, List.zip_cons_cons, List.lookup_cons, List.lookup_cons, ih]
          cases name == first <;> rfl

theorem mem_of_lookup_zip {names : List String} {name : String} (found : (names.zip l).lookup name = some j) :
    j ∈ l := by
  obtain ⟨front, back, split, -⟩ := List.lookup_eq_some_iff.mp found
  have mem : (name, j) ∈ names.zip l := by simp [split]
  exact (List.of_mem_zip mem).2

theorem checkMembers_cons (fields : List Field) (seen : List String) (m : String × Json)
    (ms : List (String × Json)) :
    checkMembers fields .tree seen (Raw.ofMembers (m :: ms)) =
      match fields.find? (·.name = m.1) with
      | none => checkMembers fields .tree seen (Raw.ofMembers ms)
      | some field =>
        if m.1 ∈ seen then .error (.duplicateField m.1)
        else field.check .tree (.ofJson m.2) >>= fun _ =>
          checkMembers fields .tree (m.1 :: seen) (Raw.ofMembers ms) := by
  rw [Raw.ofMembers, checkMembers, Raw.skip_ofJson]
  rfl

theorem checkItems_cons (field : Field) (fields : List Field) (j : Json) (l : List Json) :
    checkItems .tree (field :: fields) (Raw.ofItems (j :: l)) =
      (field.check .tree (.ofJson j) >>= fun _ => checkItems .tree fields (Raw.ofItems l)) :=
  rfl

theorem decoder_ofJson_obj (r : Record α) (type : String) (ms : List (String × Json)) :
    r.decoder type .tree (.ofJson (.obj ms)) =
      (checkMembers r.fields .tree [] (Raw.ofMembers ms) >>= fun _ =>
        r.build .tree (fun name => (Members.get? name ms).map .ofJson) .missingField) := by
  have slots : slot (Raw.ofMembers ms) = fun name => (Members.get? name ms).map .ofJson :=
    funext (slot_ofMembers ms)
  rw [← slots]
  rfl

theorem decoder_ofJson_arr (r : Record α) (type : String) (l : List Json) :
    r.decoder type .tree (.ofJson (.arr l)) =
      (checkItems .tree r.fields (Raw.ofItems l) >>= fun _ =>
        if r.fields.length < l.length then .error (surplus .tree l.length)
        else
          r.build .tree (fun name => (((r.fields.map (·.name)).zip l).lookup name).map .ofJson)
            fun name => .wrongLength ((r.fields.map (·.name)).idxOf name) (shape type r.fields)) := by
  have slots : (fun name => ((r.fields.map (·.name)).zip (Raw.ofItems l)).lookup name) =
      fun name => (((r.fields.map (·.name)).zip l).lookup name).map .ofJson :=
    funext (lookup_zip_ofItems _ l)
  have length : (Raw.ofItems l).length = l.length := by rw [Raw.ofItems_eq_map, List.length_map]
  rw [← slots, ← length]
  rfl

/-! ### Changing the values of fields -/

/-- Changing each value by the name of its field changes what a record stands for by
`φ`, and lets each check find what it found. -/
structure Changes (r : Record α) (f : String → Json → Json) (φ : α → α) : Prop where
  check : ∀ field ∈ r.fields, ∀ j : Json, j.Sorted →
    field.check .tree (.ofJson (f field.name j)) = field.check .tree (.ofJson j)
  build : ∀ (slots : String → Option Json) (missing : String → DecodeError),
    (∀ name j, slots name = some j → j.Sorted) →
    r.build .tree (fun name => (slots name).map fun j => .ofJson (f name j)) missing =
      (r.build .tree (fun name => (slots name).map .ofJson) missing).map φ

variable {f : String → Json → Json} {φ : α → α}

theorem checkMembers_mapNamed
    (check : ∀ field ∈ fields, ∀ j : Json, j.Sorted →
      field.check .tree (.ofJson (f field.name j)) = field.check .tree (.ofJson j))
    (sorted : ∀ m ∈ ms, m.2.Sorted) (seen : List String) :
    checkMembers fields .tree seen (Raw.ofMembers (ms.map fun m => (m.1, f m.1 m.2))) =
      checkMembers fields .tree seen (Raw.ofMembers ms) := by
  induction ms generalizing seen with
  | nil => rfl
  | cons m ms ih =>
      obtain ⟨first, rest⟩ := List.forall_mem_cons.mp sorted
      rw [List.map_cons, checkMembers_cons, checkMembers_cons]
      simp only [ih rest]
      cases found : fields.find? (·.name = m.1) with
      | none => rfl
      | some field =>
          have named : field.name = m.1 := by simpa using List.find?_some found
          have same := check field (List.mem_of_find?_eq_some found) m.2 first
          rw [named] at same
          dsimp only
          rw [same]

theorem checkItems_mapListed
    (check : ∀ field ∈ fields, ∀ j : Json, j.Sorted →
      field.check .tree (.ofJson (f field.name j)) = field.check .tree (.ofJson j))
    (sorted : ∀ j ∈ l, j.Sorted) :
    checkItems .tree fields (Raw.ofItems (Json.mapListed f (fields.map (·.name)) l)) =
      checkItems .tree fields (Raw.ofItems l) := by
  induction fields generalizing l with
  | nil => cases l <;> rfl
  | cons field fields ih =>
      cases l with
      | nil => rfl
      | cons j l =>
          obtain ⟨here, rest⟩ := List.forall_mem_cons.mp check
          obtain ⟨first, others⟩ := List.forall_mem_cons.mp sorted
          rw [List.map_cons, Json.mapListed, checkItems_cons, checkItems_cons, here j first, ih rest others]

theorem Changes.decoder (h : r.Changes f φ) (type : String) (sorted : j.Sorted) :
    r.decoder type .tree (.ofJson (j.mapFields (r.fields.map (·.name)) f)) =
      (r.decoder type .tree (.ofJson j)).map φ := by
  cases j with
  | obj ms =>
      obtain ⟨-, values⟩ := Json.sorted_obj.mp sorted
      have slots : (fun name => (Members.get? name (ms.map fun m => (m.1, f m.1 m.2))).map Raw.ofJson) =
          fun name => (Members.get? name ms).map fun j => .ofJson (f name j) := by
        funext name
        rw [Members.get?_mapNamed, Option.map_map]
        rfl
      have built := h.build (fun name => Members.get? name ms) .missingField fun name j found =>
        values _ (Members.mem_of_get? found)
      rw [Json.mapFields, decoder_ofJson_obj, decoder_ofJson_obj, checkMembers_mapNamed h.check values, slots, built]
      cases checkMembers r.fields .tree [] (Raw.ofMembers ms) <;> rfl
  | arr l =>
      have items := Json.sorted_arr.mp sorted
      have slots : (fun name => (((r.fields.map (·.name)).zip
            (Json.mapListed f (r.fields.map (·.name)) l)).lookup name).map Raw.ofJson) =
          fun name => (((r.fields.map (·.name)).zip l).lookup name).map fun j => .ofJson (f name j) := by
        funext name
        rw [Json.lookup_zip_mapListed, Option.map_map]
        rfl
      have built := h.build (fun name => ((r.fields.map (·.name)).zip l).lookup name)
        (fun name => .wrongLength ((r.fields.map (·.name)).idxOf name) (shape type r.fields))
        fun name j found => items j (mem_of_lookup_zip found)
      rw [Json.mapFields, decoder_ofJson_arr, decoder_ofJson_arr, checkItems_mapListed h.check items, slots, built,
        Json.length_mapListed]
      cases checkItems .tree r.fields (Raw.ofItems l) with
      | error e => rfl
      | ok _ =>
          dsimp only [bind, Except.bind]
          split <;> rfl
  | null | bool | num | str => rfl

section Single

variable {name : String} {d : Decoder α}

theorem check_field
    (change : ∀ j : Json, j.Sorted → d .tree (.ofJson (f name j)) = (d .tree (.ofJson j)).map φ) :
    ∀ field ∈ [Record.field name d], ∀ j : Json, j.Sorted →
      field.check .tree (.ofJson (f field.name j)) = field.check .tree (.ofJson j) := by
  intro field mem j sorted
  cases List.mem_singleton.mp mem
  simp only [Record.field, change j sorted]
  cases d .tree (.ofJson j) <;> rfl

theorem Changes.required
    (change : ∀ j : Json, j.Sorted → d .tree (.ofJson (f name j)) = (d .tree (.ofJson j)).map φ) :
    (Record.required name d).Changes f φ where
  check := check_field change
  build := by
    intro slots missing sorted
    simp only [Record.required]
    cases found : slots name with
    | none => rfl
    | some j => exact change j (sorted name j found)

theorem Changes.defaulting {a : α} (fixed : φ a = a)
    (change : ∀ j : Json, j.Sorted → d .tree (.ofJson (f name j)) = (d .tree (.ofJson j)).map φ) :
    (Record.defaulting name d a).Changes f φ where
  check := check_field change
  build := by
    intro slots missing sorted
    simp only [Record.defaulting]
    cases found : slots name with
    | none => exact congrArg Except.ok fixed.symm
    | some j => exact change j (sorted name j found)

end Single

/-! ### Objects whose values are accepted -/

theorem checkMembers_eq_ok {seen : List String} (sorted : Members.Sorted ms) (fresh : ∀ m ∈ ms, m.1 ∉ seen)
    (good : ∀ m ∈ ms, ∀ field ∈ fields, field.name = m.1 → field.check .tree (.ofJson m.2) = .ok ()) :
    checkMembers fields .tree seen (Raw.ofMembers ms) = .ok () := by
  induction ms generalizing seen with
  | nil => rfl
  | cons m ms ih =>
      obtain ⟨below, sorted⟩ := List.pairwise_cons.mp sorted
      obtain ⟨new, fresh⟩ := List.forall_mem_cons.mp fresh
      obtain ⟨here, good⟩ := List.forall_mem_cons.mp good
      rw [checkMembers_cons]
      cases found : fields.find? (·.name = m.1) with
      | none => exact ih sorted fresh good
      | some field =>
          have named : field.name = m.1 := by simpa using List.find?_some found
          have still : ∀ n ∈ ms, n.1 ∉ m.1 :: seen := by
            intro n mem
            have ne : n.1 ≠ m.1 := fun same => String.lt_irrefl _ (same ▸ below n mem)
            simpa [ne] using fresh n mem
          dsimp only
          rw [if_neg new, here field (List.mem_of_find?_eq_some found) named]
          exact ih sorted still good

theorem decoder_obj {type : String} (sorted : Members.Sorted ms)
    (good : ∀ m ∈ ms, ∀ field ∈ r.fields, field.name = m.1 → field.check .tree (.ofJson m.2) = .ok ()) :
    r.decoder type .tree (.ofJson (.obj ms)) =
      r.build .tree (fun name => (Members.get? name ms).map .ofJson) .missingField := by
  rw [decoder_ofJson_obj, checkMembers_eq_ok sorted (fun _ _ => List.not_mem_nil) good]
  rfl

end Record

end Sandbox
