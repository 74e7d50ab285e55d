import Mathlib.Data.List.Forall2
import Sandbox.Proofs.Json.Fields

/-!
Which documents stand for a value.

For each decoder it is said of which documents it makes a value, and which value that is:
of texts, of any document, of null and others, of lists item by item, of named values and
of records. An object stands for a record by the values under the names of the fields and
a list by those in their places, each alone (`Record.decodeTree_obj_iff`,
`Record.decodeTree_arr_iff`), so that a record of two fields comes down to two values
(`Record.decodeTree_pair_iff`).
-/

namespace Sandbox

namespace Members

variable {α : Type} {ms : List (String × α)}

/-- Of members in order each is found. -/
theorem get?_of_mem (sorted : Sorted ms) {m : String × α} (mem : m ∈ ms) : get? m.1 ms = some m.2 := by
  induction ms with
  | nil => cases mem
  | cons first ms ih =>
      obtain ⟨below, sorted⟩ := List.pairwise_cons.mp sorted
      rw [get?_cons]
      rcases List.mem_cons.mp mem with rfl | later
      · exact if_pos rfl
      · have ne : first.1 ≠ m.1 := fun same => String.lt_irrefl _ (same ▸ below m later)
        rw [if_neg ne, ih sorted later]

end Members

namespace Decoder

variable {α : Type} {d : Decoder α} {j k : Json} {l : List Json} {as : List α} {s : String} {p : Path}

/-! ### Texts and other values -/

theorem text_ofJson_iff {expected : String} : text expected .tree (.ofJson j) = .ok s ↔ j = .str s := by
  constructor
  · intro ok
    cases j with
    | str _ => cases ok; rfl
    | null | bool | num | arr | obj => cases ok
  · rintro rfl
    rfl

theorem decodeTree_string_iff : decodeTree string j = .ok s ↔ j = .str s :=
  text_ofJson_iff

theorem decodeTree_path_iff : decodeTree path j = .ok p ↔ ∃ s, j = .str s ∧ p = .ofString s := by
  constructor
  · intro ok
    cases read : text "path string" .tree (.ofJson j) with
    | error e => rw [decodeTree, path, read] at ok; cases ok
    | ok s =>
        rw [decodeTree, path, read] at ok
        cases ok
        exact ⟨s, text_ofJson_iff.mp read, rfl⟩
  · rintro ⟨s, rfl, rfl⟩
    rfl

/-- Every document in order stands for itself. -/
theorem any_ofJson (sorted : j.Sorted) : any .tree (.ofJson j) = .ok j := by
  have admitted : Source.tree.Admits j := trivial
  rw [any, Raw.toJson_ofJson sorted admitted]
  rfl

theorem decodeTree_any_iff (sorted : j.Sorted) : decodeTree any j = .ok k ↔ k = j := by
  rw [decodeTree, any_ofJson sorted, Except.ok.injEq, eq_comm]

theorem decodeTree_option_iff {o : Option α} :
    decodeTree (option d) j = .ok o ↔ j = .null ∧ o = none ∨ j ≠ .null ∧ ∃ a, decodeTree d j = .ok a ∧ o = some a := by
  have other (ne : j ≠ .null) : decodeTree (option d) j = (decodeTree d j).map some := by
    cases j with
    | null => exact absurd rfl ne
    | bool | num | str | arr | obj => rfl
  by_cases null : j = .null
  · subst null
    constructor
    · rintro ⟨⟩
      exact .inl ⟨rfl, rfl⟩
    · rintro (⟨-, rfl⟩ | ⟨ne, -⟩)
      · rfl
      · exact absurd rfl ne
  · rw [other null]
    cases decodeTree d j with
    | error e => simp [null, Except.map]
    | ok a => simp [null, Except.map, eq_comm]

/-! ### Lists -/

theorem each_eq_ok_iff {d : Raw → Except DecodeError α} {rs : List Raw} :
    each d rs = .ok as ↔ List.Forall₂ (fun r a => d r = .ok a) rs as := by
  induction rs generalizing as with
  | nil =>
      rw [List.forall₂_nil_left_iff]
      exact ⟨fun ok => by cases ok; rfl, fun nil => by rw [nil]; rfl⟩
  | cons r rs ih =>
      constructor
      · intro ok
        obtain ⟨a, first, ok⟩ := bind_eq_ok ok
        obtain ⟨rest, others, ok⟩ := bind_eq_ok ok
        cases ok
        exact .cons first (ih.mp others)
      · rintro (_ | ⟨first, others⟩)
        rw [each_cons_of_ok first, ih.mpr others]
        rfl

/-- A list stands for values if its items do, one after the other. -/
theorem decodeTree_list_iff :
    decodeTree (list d) j = .ok as ↔ ∃ l, j = .arr l ∧ List.Forall₂ (fun k a => decodeTree d k = .ok a) l as := by
  have items (l : List Json) : decodeTree (list d) (.arr l) = .ok as ↔
      List.Forall₂ (fun k a => decodeTree d k = .ok a) l as := by
    rw [decodeTree, list_ofJson, each_eq_ok_iff, Raw.ofItems_eq_map, List.forall₂_map_left_iff]
    rfl
  constructor
  · intro ok
    cases j with
    | arr l => exact ⟨l, rfl, (items l).mp ok⟩
    | null | bool | num | str | obj => cases ok
  · rintro ⟨l, rfl, each⟩
    exact (items l).mpr each

/-! ### Named values -/

theorem variant_eq_ok_iff {variants : List (String × α)} {a : α} :
    variant variants s = .ok a ↔ variants.lookup s = some a := by
  unfold variant
  split
  · next b found => rw [found, Except.ok.injEq, Option.some.injEq]
  · next found => rw [found]; exact ⟨nofun, nofun⟩

/-- A named value is written as its name, or as an object with nothing under the name. -/
theorem decodeTree_enumeration_iff {variants : List (String × α)} {a : α} :
    decodeTree (enumeration variants) j = .ok a ↔
      ∃ s, variants.lookup s = some a ∧ (j = .str s ∨ j = .obj [(s, .null)]) := by
  constructor
  · intro ok
    cases j with
    | str s => exact ⟨s, variant_eq_ok_iff.mp ok, .inl rfl⟩
    | obj ms =>
        match ms with
        | [] => cases ok
        | _ :: _ :: _ => cases ok
        | [(s, k)] =>
            obtain ⟨b, known, ok⟩ := bind_eq_ok (x := variant variants s) ok
            obtain ⟨_, nothing, ok⟩ := bind_eq_ok (x := unit .tree (.ofJson k)) ok
            cases ok
            have null : k = .null := by
              cases k with
              | null => rfl
              | bool | num | str | arr | obj => cases nothing
            exact ⟨s, variant_eq_ok_iff.mp known, .inr (by rw [null])⟩
    | null | bool | num | arr => cases ok
  · rintro ⟨s, known, rfl | rfl⟩
    · exact variant_eq_ok_iff.mpr known
    · have read := variant_eq_ok_iff.mpr known
      change (variant variants s >>= _) = _
      rw [read]
      rfl

end Decoder

namespace Record

variable {α β γ : Type} {r : Record α} {j : Json} {l : List Json} {ms : List (String × Json)} {a : α}
  {type : String} {name name' : String} {d : Decoder α} {d' : Decoder β}

/-! ### Records -/

/-- What a record is made from has passed the checks of the fields. -/
def Checked (r : Record α) : Prop :=
  ∀ slots missing a, r.build .tree slots missing = .ok a →
    ∀ f ∈ r.fields, ∀ v, slots f.name = some v → f.check .tree v = .ok ()

theorem checked_pure (a : α) : (pure a : Record α).Checked :=
  fun _ _ _ _ _ mem => absurd mem List.not_mem_nil

theorem check_of_decoder {v : Raw} {a : α} (ok : d .tree v = .ok a) : (field name d).check .tree v = .ok () := by
  simp only [field, ok]
  rfl

theorem checked_required (name : String) (d : Decoder α) : (required name d).Checked := by
  intro slots missing a ok f mem v found
  cases List.mem_singleton.mp mem
  have here : slots name = some v := found
  simp only [required, here] at ok
  exact check_of_decoder ok

theorem Checked.seq {f : Record (α → β)} {x : Record α} (left : f.Checked) (right : x.Checked) :
    (f <*> x).Checked := by
  intro slots missing b ok field mem v found
  obtain ⟨g, make, ok⟩ := bind_eq_ok ok
  obtain ⟨a, value, -⟩ := bind_eq_ok ok
  rcases List.mem_append.mp mem with here | there
  · exact left slots missing g make field here v found
  · exact right slots missing a value field there v found

/-- An object stands for the record made from the values under the names of the fields,
whatever else it holds. -/
theorem decodeTree_obj_iff (checked : r.Checked) (sorted : Members.Sorted ms) :
    decodeTree (r.decoder type) (.obj ms) = .ok a ↔
      r.build .tree (fun name => (Members.get? name ms).map .ofJson) .missingField = .ok a := by
  constructor
  · intro ok
    rw [decodeTree, decoder_ofJson_obj] at ok
    obtain ⟨_, -, built⟩ := bind_eq_ok ok
    exact built
  · intro built
    rw [decodeTree, decoder_obj sorted, built]
    intro m mem f known named
    refine checked _ _ a built f known _ ?_
    rw [named, Members.get?_of_mem sorted mem]
    rfl

theorem checkItems_eq_ok {fields : List Field} (nodup : (fields.map (·.name)).Nodup)
    (good : ∀ f ∈ fields, ∀ j, ((fields.map (·.name)).zip l).lookup f.name = some j →
      f.check .tree (.ofJson j) = .ok ()) : checkItems .tree fields (Raw.ofItems l) = .ok () := by
  induction fields generalizing l with
  | nil => cases l <;> rfl
  | cons f fields ih =>
      cases l with
      | nil => rfl
      | cons j l =>
          obtain ⟨new, nodup⟩ := List.nodup_cons.mp nodup
          have rest : checkItems .tree fields (Raw.ofItems l) = .ok () := by
            refine ih nodup fun g mem k found => good g (List.mem_cons_of_mem f mem) k ?_
            have named : g.name ∈ fields.map (·.name) := List.mem_map_of_mem mem
            have apart : (g.name == f.name) = false := by
              refine beq_false_of_ne fun same => new ?_
              rwa [same] at named
            rw [List.map_cons, List.zip_cons_cons, List.lookup_cons, apart]
            exact found
          rw [checkItems_cons, good f List.mem_cons_self j (by simp), rest]
          rfl

/-- A list stands for the record made from the values in the places of the fields, if
there are no more of them. -/
theorem decodeTree_arr_iff (checked : r.Checked) (nodup : (r.fields.map (·.name)).Nodup) :
    decodeTree (r.decoder type) (.arr l) = .ok a ↔ l.length ≤ r.fields.length ∧
      r.build .tree (fun name => (((r.fields.map (·.name)).zip l).lookup name).map .ofJson)
        (fun name => .wrongLength ((r.fields.map (·.name)).idxOf name) (shape type r.fields)) = .ok a := by
  rw [decodeTree, decoder_ofJson_arr]
  constructor
  · intro ok
    obtain ⟨_, -, ok⟩ := bind_eq_ok ok
    split at ok
    case isTrue => cases ok
    case isFalse fits => exact ⟨Nat.not_lt.mp fits, ok⟩
  · rintro ⟨fits, built⟩
    rw [checkItems_eq_ok nodup fun f mem j found => checked _ _ a built f mem _ (by rw [found]; rfl)]
    exact (if_neg (Nat.not_lt.mpr fits)).trans built

/-! ### Records of two fields -/

/-- A document gives two values: under two names, or as a list of the two. -/
inductive Pair (name name' : String) (x y : Json) : Json → Prop
  | members {ms : List (String × Json)} :
    Members.get? name ms = some x → Members.get? name' ms = some y → Pair name name' x y (.obj ms)
  | items : Pair name name' x y (.arr [x, y])

section

variable {slots : String → Option Json} {missing : String → DecodeError} {f : α → β → γ} {c : γ}

theorem build_required_iff :
    (required name d).build .tree (fun n => (slots n).map .ofJson) missing = .ok a ↔
      ∃ x, slots name = some x ∧ decodeTree d x = .ok a := by
  simp only [required]
  cases found : slots name with
  | none =>
      constructor
      · intro ok
        cases ok
      · rintro ⟨_, ⟨⟩, _⟩
  | some x =>
      constructor
      · intro ok
        exact ⟨x, rfl, ok⟩
      · rintro ⟨_, ⟨⟩, ok⟩
        exact ok

theorem build_pair_iff :
    (f <$> required name d <*> required name' d').build .tree (fun n => (slots n).map .ofJson) missing = .ok c ↔
      ∃ x y a b, slots name = some x ∧ slots name' = some y ∧ decodeTree d x = .ok a ∧ decodeTree d' y = .ok b ∧
        c = f a b := by
  constructor
  · intro ok
    obtain ⟨make, first, ok⟩ := bind_eq_ok ok
    obtain ⟨b, second, ok⟩ := bind_eq_ok ok
    obtain ⟨make', known, first⟩ := bind_eq_ok first
    obtain ⟨a, value, first⟩ := bind_eq_ok first
    cases known
    cases first
    cases ok
    obtain ⟨x, found, read⟩ := build_required_iff.mp value
    obtain ⟨y, found', read'⟩ := build_required_iff.mp second
    exact ⟨x, y, a, b, found, found', read, read', rfl⟩
  · rintro ⟨x, y, a, b, found, found', read, read', rfl⟩
    have first : (required name d).build .tree (fun n => (slots n).map .ofJson) missing = .ok a :=
      build_required_iff.mpr ⟨x, found, read⟩
    have second : (required name' d').build .tree (fun n => (slots n).map .ofJson) missing = .ok b :=
      build_required_iff.mpr ⟨y, found', read'⟩
    simp only [Functor.map, Seq.seq, Pure.pure, first, second]
    rfl

/-- A list gives two values in the places of two fields if it is the list of the two. -/
theorem lookup_zip_pair (ne : name ≠ name') (l : List Json) (x y : Json) :
    l.length ≤ 2 ∧ ([name, name'].zip l).lookup name = some x ∧ ([name, name'].zip l).lookup name' = some y ↔
      l = [x, y] := by
  have apart : (name' == name) = false := beq_false_of_ne (Ne.symm ne)
  constructor
  · rintro ⟨fits, first, second⟩
    match l with
    | [] => cases first
    | [_] => simp [List.lookup_cons, apart] at second
    | [v, w] =>
        have same : v = x := by simpa [List.lookup_cons] using first
        have same' : w = y := by simpa [List.lookup_cons, apart] using second
        rw [same, same']
    | _ :: _ :: _ :: _ => exact absurd fits (by simp)
  · rintro rfl
    simp [List.lookup_cons, apart]

/-- A record of two fields stands where two values are given that fit the fields. -/
theorem decodeTree_pair_iff (ne : name ≠ name') (sorted : j.Sorted) :
    decodeTree ((f <$> required name d <*> required name' d').decoder type) j = .ok c ↔
      ∃ x y a b, Pair name name' x y j ∧ decodeTree d x = .ok a ∧ decodeTree d' y = .ok b ∧ c = f a b := by
  have checked : (f <$> required name d <*> required name' d').Checked :=
    ((checked_pure f).seq (checked_required name d)).seq (checked_required name' d')
  have names : (f <$> required name d <*> required name' d').fields.map (·.name) = [name, name'] := rfl
  have nodup : ((f <$> required name d <*> required name' d').fields.map (·.name)).Nodup := by
    rw [names]
    simpa using ne
  constructor
  · intro ok
    cases j with
    | obj ms =>
        rw [decodeTree_obj_iff checked (Json.sorted_obj.mp sorted).1, build_pair_iff] at ok
        obtain ⟨x, y, a, b, found, found', values⟩ := ok
        exact ⟨x, y, a, b, .members found found', values⟩
    | arr l =>
        rw [decodeTree_arr_iff checked nodup, build_pair_iff] at ok
        obtain ⟨fits, x, y, a, b, first, second, values⟩ := ok
        cases (lookup_zip_pair ne l x y).mp ⟨fits, first, second⟩
        exact ⟨x, y, a, b, .items, values⟩
    | null | bool | num | str => cases ok
  · rintro ⟨x, y, a, b, given, values⟩
    cases given with
    | members found found' =>
        rw [decodeTree_obj_iff checked (Json.sorted_obj.mp sorted).1, build_pair_iff]
        exact ⟨x, y, a, b, found, found', values⟩
    | items =>
        obtain ⟨fits, first, second⟩ := (lookup_zip_pair ne [x, y] x y).mpr rfl
        rw [decodeTree_arr_iff checked nodup, build_pair_iff]
        exact ⟨fits, x, y, a, b, first, second, values⟩

end

end Record

end Sandbox
