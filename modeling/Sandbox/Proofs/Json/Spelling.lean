import Sandbox.Proofs.Json.Opening
import Sandbox.Proofs.Json.Text
import Sandbox.Proofs.Json.Values
import Sandbox.Proofs.Text.Pieces

/-!
Values are read from whatever spells them.

A value is written as a document, and read from every raw value that stands for this
document, of a text or of a tree (`Decoder.Undoes`). From that it follows for records
field by field (`Record.Takes`): a record is read from an object that holds its fields
among other members, in any order, as long as none of them stands twice
(`Record.Takes.decoder_object`), and from the list of its values in the order of the fields
(`Record.Takes.decoder_list`). A field with a default may be left out.
-/

namespace Sandbox

namespace Raw

variable {src inner : Source} {v : Raw} {j : Json} {l : List Json} {items : List Raw}

/-! ### Raw values of a document -/

/-- How a raw value stands for a document. -/
inductive Spells (src : Source) : Raw → Json → Prop
  | null : Spells src .null .null
  | bool (b : Bool) : Spells src (.bool b) (.bool b)
  | num (n : JsonNumber) : Spells src (.number (some n)) (.num n)
  | str {r : RawString} {s : String} : r.content = .ok s → Spells src (.string r) (.str s)
  | arr {items : List Raw} {inner : Source} {l : List Json} : src.enter = .ok inner →
    toItems inner items = .ok l → Spells src (.list items none) (.arr l)
  | obj {members : List (RawString × Raw)} {inner : Source} {ms : List (String × Json)} : src.enter = .ok inner →
    toMembers inner members = .ok ms → Spells src (.object members none) (.obj (Members.ofList ms))

theorem spells_of_toJson (ok : v.toJson src = .ok j) : Spells src v j := by
  cases v with
  | null => cases ok; exact .null
  | bool b => cases ok; exact .bool b
  | number n =>
      cases n with
      | none => cases ok
      | some n => cases ok; exact .num n
  | string r =>
      obtain ⟨s, content, made⟩ := bind_eq_ok ok
      cases made
      exact .str content
  | list items stop =>
      obtain ⟨inner, entered, ok⟩ := bind_eq_ok ok
      obtain ⟨l, read, ok⟩ := bind_eq_ok ok
      obtain ⟨_, ended, made⟩ := bind_eq_ok ok
      cases made
      cases stop with
      | none => exact .arr entered read
      | some f => cases ended
  | object members stop =>
      obtain ⟨inner, entered, ok⟩ := bind_eq_ok ok
      obtain ⟨ms, read, ok⟩ := bind_eq_ok ok
      obtain ⟨_, ended, made⟩ := bind_eq_ok ok
      cases made
      cases stop with
      | none => exact .obj entered read
      | some f => cases ended
  | broken | ended => cases ok

theorem forall₂_of_toItems (ok : toItems src items = .ok l) :
    List.Forall₂ (fun v j => v.toJson src = .ok j) items l := by
  induction items generalizing l with
  | nil => cases ok; exact .nil
  | cons v items ih =>
      obtain ⟨j, first, ok⟩ := bind_eq_ok ok
      obtain ⟨rest, others, made⟩ := bind_eq_ok ok
      cases made
      exact .cons first (ih others)

end Raw

/-! ### Values -/

namespace Decoder

variable {α : Type} {d : Decoder α} {s : String}

/-- A value is written as a document of whole numbers and texts, and lists of them, and is
read from every raw value of this document. -/
structure Undoes (d : Decoder α) (j : Json) (a : α) : Prop where
  sorted : j.Sorted
  whole : j.Integral
  shallow : j.depth ≤ 1
  reads : ∀ src v, v.toJson src = .ok j → d src v = .ok a

theorem undoes_text (expected s : String) : (text expected).Undoes (.str s) s where
  sorted := trivial
  whole := trivial
  shallow := Nat.zero_le 1
  reads := by
    intro src v ok
    cases Raw.spells_of_toJson ok with
    | str content =>
        rw [text, content]
        rfl

theorem undoes_string (s : String) : string.Undoes (.str s) s :=
  undoes_text _ s

theorem undoes_path {p : Path} (text : p.text?.isSome) : path.Undoes (.str p.display) p := by
  obtain ⟨s, decoded⟩ := Option.isSome_iff_exists.mp text
  obtain ⟨cs, read, rfl⟩ := Option.map_eq_some_iff.mp decoded
  have written : p = .ofString (.ofList cs) := by
    rw [Path.ofString, String.toList_ofList, ← Utf8.decode?_eq_some_iff.mp read]
  rw [written, Path.display_ofString]
  refine ⟨trivial, trivial, Nat.zero_le 1, fun src v ok => ?_⟩
  rw [path, (undoes_text _ _).reads src v ok]
  rfl

theorem undoes_bool (b : Bool) : bool.Undoes (.bool b) b where
  sorted := trivial
  whole := trivial
  shallow := Nat.zero_le 1
  reads := by
    intro src v ok
    cases Raw.spells_of_toJson ok
    rfl

theorem below_of_toJson {bound n : Nat} {expected : String} {src : Source} {v : Raw} (fits : n < bound)
    (ok : v.toJson src = .ok (.nat n)) : below bound expected src v = .ok n := by
  cases Raw.spells_of_toJson ok
  rw [below, if_pos ⟨Int.natCast_nonneg n, by exact_mod_cast fits⟩, Int.toNat_natCast]

theorem integral_nat {n : Nat} (fits : n < 2 ^ 64) : (Json.nat n).Integral :=
  ⟨by omega, by exact_mod_cast fits⟩

theorem undoes_uint32 (n : UInt32) : uint32.Undoes (.nat n.toNat) n where
  sorted := trivial
  whole := integral_nat (Nat.lt_trans n.toNat_lt (by decide))
  shallow := Nat.zero_le 1
  reads := by
    intro src v ok
    rw [uint32, below_of_toJson n.toNat_lt ok]
    simp [Except.map]

theorem undoes_uint64 (n : UInt64) : uint64.Undoes (.nat n.toNat) n where
  sorted := trivial
  whole := integral_nat n.toNat_lt
  shallow := Nat.zero_le 1
  reads := by
    intro src v ok
    rw [uint64, below_of_toJson n.toNat_lt ok]
    simp [Except.map]

theorem undoes_enumeration {variants : List (String × α)} {a : α} (known : variants.lookup s = some a) :
    (enumeration variants).Undoes (.str s) a where
  sorted := trivial
  whole := trivial
  shallow := Nat.zero_le 1
  reads := by
    intro src v ok
    cases Raw.spells_of_toJson ok with
    | str content =>
        rw [enumeration, content]
        exact variant_eq_ok_iff.mpr known

/-- A list of values is written and read item by item. -/
theorem undoes_list {f : α → Json} (undoes : ∀ a, d.Undoes (f a) a) (flat : ∀ a, (f a).depth = 0) (as : List α) :
    (list d).Undoes (.arr (as.map f)) as where
  sorted := by
    rw [Json.sorted_arr, List.forall_mem_map]
    exact fun a _ => (undoes a).sorted
  whole := by
    rw [Json.integral_arr, List.forall_mem_map]
    exact fun a _ => (undoes a).whole
  shallow := by
    rw [Json.depth, Nat.succ_le_succ_iff, Json.depthItems_le_iff, List.forall_mem_map]
    exact fun a _ => Nat.le_of_eq (flat a)
  reads := by
    intro src v ok
    cases Raw.spells_of_toJson ok with
    | @arr items inner _ entered read =>
        have each := List.forall₂_map_right_iff.mp (Raw.forall₂_of_toItems read)
        have all : Decoder.each (d inner) items = .ok as :=
          each_eq_ok_iff.mpr (each.imp fun v a ok => (undoes a).reads inner v ok)
        rw [list, entered]
        change (Decoder.each (d inner) items >>= _) = _
        rw [all]
        rfl

end Decoder

/-! ### Records -/

namespace Raw

/-- The names of members, in their order, as far as they can be read. -/
def names (ms : List (RawString × Raw)) : List String :=
  ms.filterMap (·.1.content.toOption)

/-- The members of an object are among some named documents, in any order and none of
these twice, beside members with other names, of which nothing is asked. -/
structure Among (src : Source) (named : List (String × Json)) (ms : List (RawString × Raw)) : Prop where
  readable : ∀ m ∈ ms, ∃ name, m.1.content = .ok name
  once : ((names ms).filter (· ∈ named.map (·.1))).Nodup
  value : ∀ m ∈ ms, ∀ name j, (name, j) ∈ named → m.1.content = .ok name → m.2.toJson src = .ok j

variable {ms : List (RawString × Raw)} {name : String} {k : RawString} {v : Raw}

theorem names_cons (key : k.content = .ok name) : names ((k, v) :: ms) = name :: names ms := by
  rw [names, List.filterMap_cons_some (by rw [key]; rfl), names]

theorem mem_names : name ∈ names ms ↔ ∃ m ∈ ms, m.1.content = .ok name := by
  simp only [names, List.mem_filterMap]
  refine exists_congr fun m => and_congr_right fun _ => ?_
  cases m.1.content <;> simp [Except.toOption]

end Raw

/-- A field accepts every raw value of a document of its name. -/
structure Field.Accepts (field : Field) (m : String × Json) : Prop where
  name : field.name = m.1
  sorted : m.2.Sorted
  whole : m.2.Integral
  shallow : m.2.depth ≤ 1
  check : ∀ src v, v.toJson src = .ok m.2 → field.check src v = .ok ()

namespace Record

open Raw (Among names mem_names names_cons)

variable {α β : Type} {r : Record α} {a : α} {src inner : Source} {named : List (String × Json)}
  {ms : List (RawString × Raw)} {name : String} {j : Json} {given : String → Prop} {type : String}

/-- Slots hold those of the named documents that are given, and nothing in place of the
others. -/
def Hold (slots : Slots) (src : Source) (named : List (String × Json)) (given : String → Prop) : Prop :=
  ∀ m ∈ named, (given m.1 ∧ ∃ v, slots m.1 = some v ∧ v.toJson src = .ok m.2) ∨ (¬ given m.1 ∧ slots m.1 = none)

/-- The named documents are the fields of a record, in their order, and a value is made from
those of them that are given. -/
structure Takes (r : Record α) (named : List (String × Json)) (given : String → Prop) (a : α) : Prop where
  fields : List.Forall₂ Field.Accepts r.fields named
  build : ∀ src slots missing, Hold slots src named given → r.build src slots missing = .ok a

/-! ### Field by field -/

section

variable {d : Decoder α}

theorem accepts_field (name : String) (undoes : d.Undoes j a) : (field name d).Accepts (name, j) where
  name := rfl
  sorted := undoes.sorted
  whole := undoes.whole
  shallow := undoes.shallow
  check := by
    intro src v ok
    simp only [field, undoes.reads src v ok]
    rfl

theorem takes_pure (a : α) : (pure a : Record α).Takes [] given a :=
  ⟨.nil, fun _ _ _ _ => rfl⟩

theorem takes_required (name : String) (present : given name) (undoes : d.Undoes j a) :
    (required name d).Takes [(name, j)] given a where
  fields := .cons (accepts_field name undoes) .nil
  build := by
    intro src slots missing hold
    rcases hold _ List.mem_cons_self with ⟨-, v, found, ok⟩ | ⟨absent, -⟩
    · simp only [required, found]
      exact undoes.reads src v ok
    · exact absurd present absent

theorem takes_defaulting [DecidablePred given] (name : String) (b : α) (undoes : d.Undoes j a) :
    (defaulting name d b).Takes [(name, j)] given (if given name then a else b) where
  fields := .cons (accepts_field name undoes) .nil
  build := by
    intro src slots missing hold
    rcases hold _ List.mem_cons_self with ⟨present, v, found, ok⟩ | ⟨absent, none⟩
    · rw [if_pos present]
      simp only [defaulting, found]
      exact undoes.reads src v ok
    · rw [if_neg absent]
      simp only [defaulting, none]

variable {f : Record (α → β)} {g : α → β} {x : Record α} {more : List (String × Json)}

theorem Takes.seq (left : f.Takes named given g) (right : x.Takes more given a) :
    (f <*> x).Takes (named ++ more) given (g a) where
  fields := List.rel_append left.fields right.fields
  build := by
    intro src slots missing hold
    have first := left.build src slots missing fun m mem => hold m (List.mem_append_left _ mem)
    have second := right.build src slots missing fun m mem => hold m (List.mem_append_right _ mem)
    change (f.build src slots missing >>= fun g => x.build src slots missing >>= fun a => pure (g a)) = _
    rw [first]
    change (x.build src slots missing >>= fun a => pure (g a)) = _
    rw [second]
    rfl

/-- A record with a field that has to be there behind the ones before. -/
theorem Takes.required (takes : f.Takes named given g) (present : given name) (undoes : d.Undoes j a) :
    (f <*> Record.required name d).Takes (named ++ [(name, j)]) given (g a) :=
  takes.seq (takes_required name present undoes)

/-- A record with a field that may be left out behind the ones before. -/
theorem Takes.defaulting [DecidablePred given] (takes : f.Takes named given g) {b : α} (undoes : d.Undoes j a) :
    (f <*> Record.defaulting name d b).Takes (named ++ [(name, j)]) given (g (if given name then a else b)) :=
  takes.seq (takes_defaulting name b undoes)

end

section

variable {fields : List Field}

theorem names_of_accepts (accept : List.Forall₂ Field.Accepts fields named) :
    fields.map (·.name) = named.map (·.1) := by
  induction accept with
  | nil => rfl
  | cons first _ ih => rw [List.map_cons, List.map_cons, first.name, ih]

theorem exists_accepts (accept : List.Forall₂ Field.Accepts fields named) {field : Field} (mem : field ∈ fields) :
    ∃ j, (field.name, j) ∈ named ∧ field.Accepts (field.name, j) := by
  induction accept with
  | nil => cases mem
  | @cons first m fields named accepts _ ih =>
      rcases List.mem_cons.mp mem with rfl | later
      · obtain ⟨name, j⟩ := m
        cases accepts.name
        exact ⟨j, List.mem_cons_self, accepts⟩
      · obtain ⟨j, there, accepts⟩ := ih later
        exact ⟨j, List.mem_cons_of_mem m there, accepts⟩

/-- The documents of a record are in order and whole, and hold no more than lists. -/
theorem plain_of_accepts (accept : List.Forall₂ Field.Accepts fields named) :
    ∀ m ∈ named, m.2.Sorted ∧ m.2.Integral ∧ m.2.depth ≤ 1 := by
  induction accept with
  | nil => exact List.forall_mem_nil _
  | cons first _ ih => exact List.forall_mem_cons.mpr ⟨⟨first.sorted, first.whole, first.shallow⟩, ih⟩

end

/-! ### Objects -/

theorem slot_eq_none (absent : name ∉ names ms) : slot ms name = none := by
  induction ms with
  | nil => rfl
  | cons m ms ih =>
      obtain ⟨k, v⟩ := m
      rw [slot]
      split
      · next k' key =>
          rw [names_cons key, List.mem_cons, not_or] at absent
          rw [if_neg (Ne.symm absent.1), ih absent.2]
      · next key =>
          refine ih fun mem => absent ?_
          obtain ⟨m, there, named⟩ := mem_names.mp mem
          exact mem_names.mpr ⟨m, List.mem_cons_of_mem _ there, named⟩

theorem exists_slot (present : name ∈ names ms) : ∃ m ∈ ms, m.1.content = .ok name ∧ slot ms name = some m.2 := by
  induction ms with
  | nil => cases present
  | cons m ms ih =>
      obtain ⟨k, v⟩ := m
      have later (there : name ∈ names ms) (else' : slot ((k, v) :: ms) name = slot ms name) :
          ∃ m ∈ (k, v) :: ms, m.1.content = .ok name ∧ slot ((k, v) :: ms) name = some m.2 := by
        obtain ⟨m, mem, key, found⟩ := ih there
        exact ⟨m, List.mem_cons_of_mem _ mem, key, else'.trans found⟩
      cases key : k.content with
      | error f =>
          refine later ?_ (by rw [slot, key])
          obtain ⟨m, mem, named⟩ := mem_names.mp present
          rcases List.mem_cons.mp mem with rfl | mem
          · cases key.symm.trans named
          · exact mem_names.mpr ⟨m, mem, named⟩
      | ok k' =>
          rw [names_cons key] at present
          by_cases same : k' = name
          · subst same
            exact ⟨(k, v), List.mem_cons_self, key, by rw [slot_cons key, if_pos rfl]⟩
          · refine later ((List.mem_cons.mp present).resolve_left (Ne.symm same)) ?_
            rw [slot_cons key, if_neg same]

theorem among_of_cons {m : RawString × Raw} (among : Among src named (m :: ms)) : Among src named ms where
  readable := fun n mem => among.readable n (List.mem_cons_of_mem m mem)
  once := by
    obtain ⟨k, v⟩ := m
    obtain ⟨name, key⟩ := among.readable (k, v) List.mem_cons_self
    have once := among.once
    rw [names_cons key] at once
    exact once.sublist ((List.sublist_cons_self name _).filter _)
  value := fun n mem => among.value n (List.mem_cons_of_mem m mem)

/-- No member of an object is objected to, if each is the document of its field. -/
theorem checkMembers_of_among {fields : List Field} (accept : List.Forall₂ Field.Accepts fields named)
    (among : Among src named ms) (skips : ∀ m ∈ ms, m.2.skip = .ok ()) {seen : List String}
    (fresh : ∀ name ∈ named.map (·.1), name ∈ names ms → name ∉ seen) : checkMembers fields src seen ms = .ok () := by
  induction ms generalizing seen with
  | nil => rfl
  | cons m ms ih =>
      obtain ⟨k, v⟩ := m
      obtain ⟨name, key⟩ := among.readable (k, v) List.mem_cons_self
      obtain ⟨skip, skips⟩ := List.forall_mem_cons.mp skips
      rw [checkMembers_cons_of_content key]
      rw [names_cons key] at fresh
      cases found : fields.find? (·.name = name) with
      | none =>
          dsimp only
          rw [show v.skip = _ from skip]
          exact ih (among_of_cons among) skips fun n known mem => fresh n known (List.mem_cons_of_mem name mem)
      | some field =>
          have same : field.name = name := by simpa using List.find?_some found
          obtain ⟨j, known, accepts⟩ := exists_accepts accept (List.mem_of_find?_eq_some found)
          rw [same] at known accepts
          have mem : name ∈ named.map (·.1) := List.mem_map_of_mem known
          have once := among.once
          rw [names_cons key, List.filter_cons_of_pos (by simpa using mem), List.nodup_cons] at once
          dsimp only
          rw [if_neg (fresh name mem List.mem_cons_self),
            accepts.check src v (among.value _ List.mem_cons_self name j known key)]
          refine ih (among_of_cons among) skips fun n known mem' => ?_
          rw [List.mem_cons, not_or]
          refine ⟨?_, fresh n known (List.mem_cons_of_mem name mem')⟩
          rintro rfl
          exact once.1 (List.mem_filter.mpr ⟨mem', decide_eq_true mem⟩)

/-- A record is read from an object with its fields, beside members with other names. -/
theorem Takes.decoder_object (takes : r.Takes named given a)
    (entered : src.enter = .ok inner) (among : Among inner named ms) (skips : ∀ m ∈ ms, m.2.skip = .ok ())
    (present : ∀ m ∈ named, given m.1 ↔ m.1 ∈ names ms) : r.decoder type src (.object ms none) = .ok a := by
  have checked : checkMembers r.fields inner [] ms = .ok () :=
    checkMembers_of_among takes.fields among skips fun _ _ _ => List.not_mem_nil
  have hold : Hold (slot ms) inner named given := by
    intro m mem
    by_cases there : m.1 ∈ names ms
    · obtain ⟨n, memN, key, found⟩ := exists_slot there
      exact .inl ⟨(present m mem).mpr there, n.2, found, among.value n memN m.1 m.2 mem key⟩
    · exact .inr ⟨mt (present m mem).mp there, slot_eq_none there⟩
  rw [Record.decoder_object entered, checked]
  exact takes.build inner (slot ms) _ hold

/-! ### Lists -/

section

variable {items : List Raw}

theorem lookup_zip_of_forall₂ (nodup : (named.map (·.1)).Nodup)
    (spelled : List.Forall₂ (fun v m => v.toJson src = .ok m.2) items named) :
    ∀ m ∈ named, ∃ v, ((named.map (·.1)).zip items).lookup m.1 = some v ∧ v.toJson src = .ok m.2 := by
  induction spelled with
  | nil => exact List.forall_mem_nil _
  | @cons v m items named first _ ih =>
      obtain ⟨new, nodup⟩ := List.nodup_cons.mp nodup
      refine List.forall_mem_cons.mpr ⟨⟨v, by simp, first⟩, fun n mem => ?_⟩
      obtain ⟨w, found, ok⟩ := ih nodup n mem
      have apart : (n.1 == m.1) = false := beq_false_of_ne fun same => new (List.mem_map.mpr ⟨n, mem, same⟩)
      exact ⟨w, by rw [List.map_cons, List.zip_cons_cons, List.lookup_cons, apart]; exact found, ok⟩

theorem checkItems_of_forall₂ {fields : List Field} (accept : List.Forall₂ Field.Accepts fields named)
    (spelled : List.Forall₂ (fun v m => v.toJson src = .ok m.2) items named) :
    checkItems src fields items = .ok () := by
  induction accept generalizing items with
  | nil => cases items <;> rfl
  | cons first _ ih =>
      obtain ⟨⟩ | ⟨here, rest⟩ := spelled
      rw [checkItems, first.check _ _ here]
      exact ih rest

/-- A record is read from the list of its values in the order of the fields. -/
theorem Takes.decoder_list {v : Raw} (takes : r.Takes named given a) (nodup : (named.map (·.1)).Nodup)
    (all : ∀ m ∈ named, given m.1) (ok : v.toJson src = .ok (.arr (named.map (·.2)))) :
    r.decoder type src v = .ok a := by
  cases Raw.spells_of_toJson ok with
  | @arr items inner _ entered read =>
      have spelled := List.forall₂_map_right_iff.mp (Raw.forall₂_of_toItems read)
      have length : r.fields.length = items.length := takes.fields.length_eq.trans spelled.length_eq.symm
      have hold : Hold (fun name => ((r.fields.map (·.name)).zip items).lookup name) inner named given := by
        rw [names_of_accepts takes.fields]
        exact fun m mem => .inl ⟨all m mem, lookup_zip_of_forall₂ nodup spelled m mem⟩
      rw [Record.decoder_list entered, checkItems_of_forall₂ takes.fields spelled]
      change (if r.fields.length < items.length then _ else _) = _
      rw [if_neg (Nat.not_lt.mpr (Nat.le_of_eq length.symm))]
      exact takes.build inner _ _ hold

end

end Record

end Sandbox
