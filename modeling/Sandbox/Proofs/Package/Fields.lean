import Sandbox.Proofs.Generate.Sample
import Sandbox.Proofs.Host.Document
import Sandbox.Proofs.Json.Values
import Sandbox.Proofs.Package.Metadata

/-!
The fields of a package's metadata, each on its own.

For every field it is said which values it accepts (`OptionalText`, `Texts`, `Variables`,
`Role`). Every object is metadata, in which a field has what the value under its own name
stands for, or its default where there is no such value or it is not accepted
(`Metadata.ReadFrom`). So an object that differs under one name is metadata that differs
in the field of that name at most (`Metadata.fields_independent`).
-/

namespace Sandbox.Package

/-! ### What fields accept -/

/-- A text, or null for none. -/
inductive OptionalText : Json → Option String → Prop
  | none : OptionalText .null none
  | some (s : String) : OptionalText (.str s) (some s)

/-- A list of texts. -/
inductive Texts : Json → List String → Prop
  | list (l : List String) : Texts (.strings l) l

/-- A variable: a text for its name, and any value. -/
inductive Variable : Json → Configuration → Prop
  | pair {j value : Json} {key : String} : Record.Pair "key" "value" (.str key) value j → Variable j ⟨key, value⟩

/-- A list of variables. -/
inductive Variables : Json → List Configuration → Prop
  | list {l : List Json} {cs : List Configuration} : List.Forall₂ Variable l cs → Variables (.arr l) cs

/-- A role: its name, or an object with nothing under its name. -/
inductive Role : Json → PackageType → Prop
  | name (t : PackageType) : Role (.str t.name) t
  | member (t : PackageType) : Role (.obj [(t.name, .null)]) t

variable {j : Json}

theorem optionalText_iff {o : Option String} : decodeTree (.option .string) j = .ok o ↔ OptionalText j o := by
  rw [Decoder.decodeTree_option_iff]
  simp only [Decoder.decodeTree_string_iff]
  constructor
  · rintro (⟨rfl, rfl⟩ | ⟨-, s, rfl, rfl⟩)
    · exact .none
    · exact .some s
  · rintro (_ | s)
    · exact .inl ⟨rfl, rfl⟩
    · exact .inr ⟨Json.noConfusion, s, rfl, rfl⟩

theorem texts_iff {l : List String} : decodeTree (.list .string) j = .ok l ↔ Texts j l := by
  rw [Decoder.decodeTree_list_iff]
  simp only [Decoder.decodeTree_string_iff]
  constructor
  · rintro ⟨items, rfl, each⟩
    rw [← List.forall₂_map_right_iff, List.forall₂_eq_eq_eq] at each
    rw [each]
    exact .list l
  · rintro ⟨⟩
    refine ⟨l.map .str, rfl, ?_⟩
    rw [← List.forall₂_map_right_iff, List.forall₂_eq_eq_eq]

theorem variable_iff {c : Configuration} (sorted : j.Sorted) :
    decodeTree Configuration.decoder j = .ok c ↔ Variable j c := by
  have values {x y : Json} (given : Record.Pair "key" "value" x y j) : y.Sorted := by
    cases given with
    | members _ found => exact (Json.sorted_obj.mp sorted).2 _ (Members.mem_of_get? found)
    | items => exact Json.sorted_arr.mp sorted _ (by simp)
  rw [Configuration.decoder, Configuration.record, Record.decodeTree_pair_iff (by decide) sorted]
  constructor
  · rintro ⟨x, y, key, value, given, text, any, rfl⟩
    rw [(Decoder.decodeTree_any_iff (values given)).mp any]
    rw [Decoder.decodeTree_string_iff.mp text] at given
    exact .pair given
  · rintro ⟨given⟩
    exact ⟨_, _, _, _, given, rfl, (Decoder.decodeTree_any_iff (values given)).mpr rfl, rfl⟩

theorem variables_iff {cs : List Configuration} (sorted : j.Sorted) :
    decodeTree (.list Configuration.decoder) j = .ok cs ↔ Variables j cs := by
  rw [Decoder.decodeTree_list_iff]
  constructor
  · rintro ⟨l, rfl, each⟩
    have items := (List.forall₂_and_left _ _).mpr ⟨Json.sorted_arr.mp sorted, each⟩
    exact .list (items.imp fun _ _ item => (variable_iff item.1).mp item.2)
  · rintro ⟨each⟩
    have items := (List.forall₂_and_left _ _).mpr ⟨Json.sorted_arr.mp sorted, each⟩
    exact ⟨_, rfl, items.imp fun _ _ item => (variable_iff item.1).mpr item.2⟩

theorem lookup_role_iff {s : String} {t : PackageType} :
    [(PackageType.runtime.name, PackageType.runtime), (PackageType.application.name, .application)].lookup s =
      some t ↔ s = t.name := by
  constructor
  · intro found
    obtain ⟨front, back, split, -⟩ := List.lookup_eq_some_iff.mp found
    have mem : (s, t) ∈
        [(PackageType.runtime.name, PackageType.runtime), (PackageType.application.name, .application)] := by
      simp [split]
    simp only [List.mem_cons, Prod.mk.injEq, List.not_mem_nil, or_false] at mem
    rcases mem with ⟨rfl, rfl⟩ | ⟨rfl, rfl⟩ <;> rfl
  · rintro rfl
    cases t <;> rfl

theorem role_iff {t : PackageType} : decodeTree PackageType.decoder j = .ok t ↔ Role j t := by
  rw [PackageType.decoder, Decoder.decodeTree_enumeration_iff]
  simp only [lookup_role_iff]
  constructor
  · rintro ⟨s, rfl, rfl | rfl⟩
    · exact .name t
    · exact .member t
  · rintro (_ | _)
    · exact ⟨_, rfl, .inl rfl⟩
    · exact ⟨_, rfl, .inr rfl⟩

namespace Metadata

variable {α : Type} {ms ms' : List (String × Json)} {m m' : Metadata} {key name : String}

/-! ### Fields -/

/-- A field has what the value under its name stands for, or its default if there is no
value under the name or it stands for nothing. -/
structure FieldIs (ms : List (String × Json)) (name : String) (Accepts : Json → α → Prop) (default a : α) : Prop where
  given : ∀ j b, Members.get? name ms = some j → Accepts j b → a = b
  missing : (∀ j b, Members.get? name ms = some j → ¬ Accepts j b) → a = default

/-- Metadata has in each field what an object holds under the name of the field. -/
structure ReadFrom (ms : List (String × Json)) (m : Metadata) : Prop where
  entryPoint : FieldIs ms "entryPoint" OptionalText none m.entryPoint
  permissions : FieldIs ms "permissions" Texts [] m.permissions
  configurations : FieldIs ms "configurations" Variables [] m.configurations
  packageType : FieldIs ms "packageType" Role .runtime m.packageType
  memoryLimit : FieldIs ms "memoryLimit" OptionalText none m.memoryLimit
  envVariables : FieldIs ms "envVariables" Texts [] m.envVariables

theorem fieldIs_read {d : Decoder α} {Accepts : Json → α → Prop} (values : ∀ v ∈ ms, v.2.Sorted)
    (accepts : ∀ j : Json, j.Sorted → ∀ b, decodeTree d j = .ok b ↔ Accepts j b) (name : String) (a : α) :
    FieldIs ms name Accepts a (read ms name d a) := by
  constructor
  · intro j b found accepted
    have decoded := (accepts j (values _ (Members.mem_of_get? found)) b).mpr accepted
    rw [read, found, Option.bind_some, decoded]
    rfl
  · intro never
    unfold read
    cases found : Members.get? name ms with
    | none => rfl
    | some j =>
        rw [Option.bind_some]
        cases decoded : decodeTree d j with
        | error e => rfl
        | ok b =>
            have accepted := (accepts j (values _ (Members.mem_of_get? found)) b).mp decoded
            exact absurd accepted (never j b found)

/-- The fields of an object can be read whatever stands in them. -/
theorem exists_of_members (sorted : (Json.obj ms).Sorted) :
    ∃ m, decodeTree decoder (.obj ms) = .ok m ∧ ReadFrom ms m := by
  obtain ⟨ordered, values⟩ := Json.sorted_obj.mp sorted
  refine ⟨_, decodeTree_obj ordered, ?_⟩
  exact {
    entryPoint := fieldIs_read values (fun _ _ _ => optionalText_iff) _ _
    permissions := fieldIs_read values (fun _ _ _ => texts_iff) _ _
    configurations := fieldIs_read values (fun _ sorted _ => variables_iff sorted) _ _
    packageType := fieldIs_read values (fun _ _ _ => role_iff) _ _
    memoryLimit := fieldIs_read values (fun _ _ _ => optionalText_iff) _ _
    envVariables := fieldIs_read values (fun _ _ _ => texts_iff) _ _ }

/-! ### Changes under one name -/

/-- Two objects hold the same, except for what is under one name. -/
def SameBut (key : String) (ms ms' : List (String × Json)) : Prop :=
  ∀ name, name ≠ key → Members.get? name ms' = Members.get? name ms

theorem sameBut_set (key : String) (j : Json) (ms : List (String × Json)) :
    SameBut key ms (Members.set key j ms) :=
  fun _ ne => Members.get?_set_of_ne ne j ms

/-- Metadata has the same in all fields, except for the one of a name. -/
structure SameFieldsBut (key : String) (m m' : Metadata) : Prop where
  entryPoint : key ≠ "entryPoint" → m'.entryPoint = m.entryPoint
  permissions : key ≠ "permissions" → m'.permissions = m.permissions
  configurations : key ≠ "configurations" → m'.configurations = m.configurations
  packageType : key ≠ "packageType" → m'.packageType = m.packageType
  memoryLimit : key ≠ "memoryLimit" → m'.memoryLimit = m.memoryLimit
  envVariables : key ≠ "envVariables" → m'.envVariables = m.envVariables

theorem SameBut.read_eq (same : SameBut key ms ms') (ne : key ≠ name) (d : Decoder α) (a : α) :
    read ms' name d a = read ms name d a := by
  rw [read, read, same name (Ne.symm ne)]

theorem SameBut.sameFieldsBut (same : SameBut key ms ms') (ordered : Members.Sorted ms) (ordered' : Members.Sorted ms')
    (decoded : decodeTree decoder (.obj ms) = .ok m) (decoded' : decodeTree decoder (.obj ms') = .ok m') :
    SameFieldsBut key m m' := by
  cases (decodeTree_obj ordered).symm.trans decoded
  cases (decodeTree_obj ordered').symm.trans decoded'
  exact {
    entryPoint := fun ne => same.read_eq ne _ _
    permissions := fun ne => same.read_eq ne _ _
    configurations := fun ne => same.read_eq ne _ _
    packageType := fun ne => same.read_eq ne _ _
    memoryLimit := fun ne => same.read_eq ne _ _
    envVariables := fun ne => same.read_eq ne _ _ }

theorem load_eq_ok_iff {h : Host} {p : Path} {j : Json} (loaded : h.loadDocument p = .ok j) :
    load h p = .ok m ↔ decodeTree decoder j = .ok m := by
  rw [load, Host.loadDecoded, loaded]
  exact mapError_eq_ok_iff

/-- Every object is metadata, each field of which has what the value under its own name
stands for, or its default if there is none or it stands for nothing. Objects that differ
under one name, by another value there or by one where there was none, are metadata that
differs in the field of that name at most, and in no field if it is the name of none. -/
theorem fields_independent :
    (∀ (h : Host) (p : Path) (ms : List (String × Json)), h.loadDocument p = .ok (.obj ms) →
      ∃ m, load h p = .ok m ∧ ReadFrom ms m) ∧
    ∀ (h h' : Host) (p p' : Path) (ms ms' : List (String × Json)) (key : String) (m m' : Metadata),
      h.loadDocument p = .ok (.obj ms) → h'.loadDocument p' = .ok (.obj ms') → SameBut key ms ms' →
      load h p = .ok m → load h' p' = .ok m' → SameFieldsBut key m m' := by
  constructor
  · intro h p ms loaded
    obtain ⟨m, decoded, fields⟩ := exists_of_members (Host.loadDocument_eq_ok loaded).1
    exact ⟨m, (load_eq_ok_iff loaded).mpr decoded, fields⟩
  · intro h h' p p' ms ms' key m m' loaded loaded' same read read'
    have ordered := (Json.sorted_obj.mp (Host.loadDocument_eq_ok loaded).1).1
    have ordered' := (Json.sorted_obj.mp (Host.loadDocument_eq_ok loaded').1).1
    exact same.sameFieldsBut ordered ordered' ((load_eq_ok_iff loaded).mp read) ((load_eq_ok_iff loaded').mp read')

/-- A program that is no text is no program, and the capabilities are those that were there
with a program. -/
theorem fields_independent_sample :
    let document (program : String) :=
      Sample.file ("\x7b\x22entryPoint\x22:" ++ program ++ ",\x22permissions\x22:[\x22CAP\x22]\x7d")
    let h := Sample.host [([Sample.name "text"], document "\x22/bin/app\x22"), ([Sample.name "number"], document "5")]
    ∃ m m', load h (.ofString "/text") = .ok m ∧ load h (.ofString "/number") = .ok m' ∧
      m.entryPoint = some "/bin/app" ∧ m'.entryPoint = none ∧ m'.permissions = m.permissions := by
  intro document h
  let members (program : Json) := [("entryPoint", program), ("permissions", .strings ["CAP"])]
  have text : h.loadDocument (.ofString "/text") = .ok (.obj (members (.str "/bin/app"))) := by decide +kernel
  have number : h.loadDocument (.ofString "/number") = .ok (.obj (members (.nat 5))) := by decide +kernel
  obtain ⟨reads, independent⟩ := fields_independent
  obtain ⟨m, read, fields⟩ := reads h _ _ text
  obtain ⟨m', read', fields'⟩ := reads h _ _ number
  have same : SameBut "entryPoint" (members (.str "/bin/app")) (members (.nat 5)) := sameBut_set "entryPoint" (.nat 5) _
  refine ⟨m, m', read, read', ?_, ?_, ?_⟩
  · exact fields.entryPoint.given _ _ rfl (.some _)
  · refine fields'.entryPoint.missing fun j b found accepted => ?_
    cases found
    cases accepted
  · exact (independent h h _ _ _ _ _ _ _ text number same read read').permissions (by decide)

end Metadata

end Sandbox.Package
