import Sandbox.Application
import Sandbox.Overlay
import Sandbox.Proofs.Generate.Place
import Sandbox.Proofs.Host.Segments
import Sandbox.Proofs.Json.Opening

/-!
Ids of instances as keys.

A text is an id exactly when it adds itself to a path, whichever path that is: one
component more, and that is the text (`isSegment_iff_addsItself`). Reading asks for the
same, on its own and within an application (`Application.decoder_fill_iff`). So what is
made for one instance has other components than what is made for another one, lies in its
own directory alone, and can be made below the overlay root (`InstanceId.keys_its_paths`).
-/

namespace Sandbox

open Sandbox.Path

/-! ### One component more -/

/-- A text behind a path adds one component, which is the text itself. -/
def Path.AddsItself (root : Path) (s : String) : Prop :=
  (root.childText s).components = root.components ++ [.normal (Utf8.encode s.toList)]

theorem isSegment_of_ordinary {s : String} (h : Ordinary (Utf8.encode s.toList)) : isSegment s = true := by
  have slash : '/' ∉ s.toList := by
    intro mem
    exact h.separator_not_mem (List.mem_flatMap.mpr ⟨'/', mem, by decide⟩)
  have differs {t : String} (ne : Utf8.encode s.toList ≠ Utf8.encode t.toList) : s ≠ t := by
    rintro rfl
    exact ne rfl
  have nonempty : s ≠ "" := differs h.ne_nil
  have notDot : s ≠ "." := differs h.ne_dot
  have notDotDot : s ≠ ".." := differs h.ne_dotDot
  simp [isSegment, nonempty, notDot, notDotDot, slash]

theorem isSegment_iff_addsItself (root : Path) (s : String) : isSegment s = true ↔ root.AddsItself s := by
  constructor
  · intro segment
    exact components_child root (ordinary_of_isSegment segment)
  · intro components
    -- Whatever is a component is an ordinary name, and so is the text if it is one.
    refine isSegment_of_ordinary (ordinary_of_mem_components (p := root.childText s) ?_)
    rw [components]
    exact List.mem_append_right _ List.mem_cons_self

/-! ### Reading -/

namespace InstanceId

variable {src : Source} {k : RawString} {s : String} {id : InstanceId}

theorem ofString_eq_ok_iff : ofString s = .ok id ↔ id.text = s := by
  unfold ofString
  constructor
  · intro ok
    split at ok
    · cases ok; rfl
    · cases ok
  · rintro rfl
    rw [dif_pos id.isSegment_text]

theorem decoder_eq_ok_iff (content : k.content = .ok s) : decoder src (.string k) = .ok id ↔ id.text = s := by
  have read : decoder src (.string k) = (ofString s).mapError fun e => .refused e.message := by
    rw [decoder, Decoder.string, Decoder.text, content]
    rfl
  rw [read, ← ofString_eq_ok_iff]
  cases ofString s with
  | error e => exact ⟨nofun, nofun⟩
  | ok id' =>
      constructor
      · intro ok
        exact congrArg Except.ok (Except.ok.inj ok)
      · intro ok
        exact congrArg Except.ok (Except.ok.inj ok)

theorem exists_text_eq_iff : (∃ id : InstanceId, id.text = s) ↔ isSegment s = true := by
  constructor
  · rintro ⟨id, rfl⟩
    exact id.isSegment_text
  · intro segment
    exact ⟨⟨s, segment⟩, rfl⟩

end InstanceId

namespace Application

variable {src : Source} {o : Opening} {k : RawString} {s : String}

theorem field_eq {field : Field} (mem : field ∈ record.fields) (named : field.name = "instance_id") :
    field = Record.field "instance_id" InstanceId.decoder := by
  have fields : record.fields = [Record.field "app_id" .string, Record.field "uid" .uint32,
    Record.field "gid" .uint32, Record.field "instance_id" InstanceId.decoder,
    Record.field "display_socket" .path, Record.field "storage_path" .path] := rfl
  rw [fields] at mem
  simp only [List.mem_cons, List.not_mem_nil, or_false] at mem
  rcases mem with rfl | rfl | rfl | rfl | rfl | rfl
  case inr.inr.inr.inl => rfl
  all_goals exact absurd named (by decide)

/-- An application is read in the same way with another id, up to the id. -/
theorem build_of_id {slots slots' : Slots} {missing : String → DecodeError} {v w : Raw} {before id : InstanceId}
    (there : slots "instance_id" = some v) (there' : slots' "instance_id" = some w)
    (others : ∀ n, n ≠ "instance_id" → slots' n = slots n)
    (old : InstanceId.decoder src v = .ok before) (new : InstanceId.decoder src w = .ok id) :
    record.build src slots' missing = (record.build src slots missing).map ({ · with instanceId := id }) := by
  have same {β : Type} (d : Decoder β) {n : String} (ne : n ≠ "instance_id") :
      (Record.required n d).build src slots' missing = (Record.required n d).build src slots missing := by
    simp only [Record.required, others n ne]
  have read : (Record.required "instance_id" InstanceId.decoder).build src slots missing = .ok before := by
    simp only [Record.required, there, old]
  have read' : (Record.required "instance_id" InstanceId.decoder).build src slots' missing = .ok id := by
    simp only [Record.required, there', new]
  simp only [record, Functor.map, Seq.seq, pure, read, read', same _ (show "app_id" ≠ "instance_id" by decide),
    same _ (show "uid" ≠ "instance_id" by decide), same _ (show "gid" ≠ "instance_id" by decide),
    same _ (show "display_socket" ≠ "instance_id" by decide),
    same _ (show "storage_path" ≠ "instance_id" by decide)]
  cases (Record.required "app_id" .string).build src slots missing with
  | error e => rfl
  | ok appId =>
  cases (Record.required "uid" .uint32).build src slots missing with
  | error e => rfl
  | ok uid =>
  cases (Record.required "gid" .uint32).build src slots missing with
  | error e => rfl
  | ok gid =>
  cases (Record.required "display_socket" .path).build src slots missing with
  | error e => rfl
  | ok socket =>
  cases (Record.required "storage_path" .path).build src slots missing with
  | error e => rfl
  | ok storage => rfl

/-- A text as the id of an application is read exactly when it is an id, if the application
is read with any id at all. -/
theorem decoder_fill_iff (isOf : o.IsOf record.fields "instance_id") (content : k.content = .ok s)
    (read : ∃ (id : InstanceId) (a : Application), decoder src (o.fill (.string (Raw.ofString id.text))) = .ok a) :
    (∃ a, decoder src (o.fill (.string k)) = .ok a ∧ a.instanceId.text = s) ↔ isSegment s = true := by
  have known : "instance_id" ∈ record.fields.map (·.name) := by decide
  constructor
  · rintro ⟨a, ok, -⟩
    obtain ⟨src', field, mem, named, checked⟩ := Record.checked_of_decoder isOf known ok
    cases field_eq mem named
    simp only [Record.field] at checked
    cases decoded : InstanceId.decoder src' (.string k) with
    | error e => rw [decoded] at checked; cases checked
    | ok id => exact InstanceId.exists_text_eq_iff.mp ⟨id, (InstanceId.decoder_eq_ok_iff content).mp decoded⟩
  · intro segment
    obtain ⟨before, a, ok⟩ := read
    have old (src : Source) : InstanceId.decoder src (.string (Raw.ofString before.text)) = .ok before :=
      (InstanceId.decoder_eq_ok_iff rfl).mpr rfl
    have new (src : Source) : InstanceId.decoder src (.string k) = .ok ⟨s, segment⟩ :=
      (InstanceId.decoder_eq_ok_iff content).mpr rfl
    have same (src : Source) : ∀ field ∈ record.fields, field.name = "instance_id" →
        field.check src (.string (Raw.ofString before.text)) = field.check src (.string k) := by
      intro field mem named
      rw [field_eq mem named, Record.field]
      dsimp only
      rw [old, new]
      rfl
    refine ⟨{ a with instanceId := ⟨s, segment⟩ }, ?_, rfl⟩
    rw [decoder] at ok ⊢
    rw [Record.decoder_fill isOf known (by decide) same fun src slots slots' missing there there' others =>
      build_of_id there there' others (old src) (new src), ok]
    rfl

end Application

/-! ### Paths of an instance -/

namespace Config

variable {c : Config} {layers : InstanceId → List Path} {path : InstanceId → Path}

/-- What is made below the overlay root for an instance with some layers, as paths of its
id: its directory, its specification and the directories of its layered root. -/
def artifacts (c : Config) (layers : InstanceId → List Path) : List (InstanceId → Path) :=
  let layout id := Layout.ofInstance c.overlayRoot id (layers id)
  [c.instanceDir, c.specPath, c.rootfsPath, fun id => (layout id).upper, fun id => (layout id).work,
    fun id => (layout id).merged]

/-- All of it lies in the directory that has the id as its name. -/
theorem components_artifact (mem : path ∈ c.artifacts layers) :
    ∃ ns : List Name, ∀ id : InstanceId,
      (path id).components = c.overlayRoot.components ++ .normal id.name :: ns.map .normal := by
  have dir (id : InstanceId) : (c.instanceDir id).components = c.overlayRoot.components ++ [.normal id.name] :=
    components_child _ id.ordinary_name
  have inside (id : InstanceId) {s : String} (segment : isSegment s = true) :
      ((c.instanceDir id).childText s).components =
        c.overlayRoot.components ++ .normal id.name :: [Utf8.encode s.toList].map .normal := by
    have below : ((c.instanceDir id).childText s).components = (c.instanceDir id).components ++ [.normal _] :=
      components_child _ (ordinary_of_isSegment segment)
    rw [below, dir, List.append_assoc]
    rfl
  simp only [artifacts, List.mem_cons, List.not_mem_nil, or_false] at mem
  rcases mem with rfl | rfl | rfl | rfl | rfl | rfl
  · exact ⟨[], dir⟩
  · exact ⟨_, fun id => inside id (by decide)⟩
  · exact ⟨_, fun id => inside id (by decide)⟩
  · exact ⟨_, fun id => inside id (by decide)⟩
  · exact ⟨_, fun id => inside id (by decide)⟩
  · exact ⟨_, fun id => inside id (by decide)⟩

theorem components_ipcSocketPath (c : Config) (id : InstanceId) :
    (c.ipcSocketPath id).components =
      c.ipcSocketDir.components ++ [.normal (Utf8.encode (id.text ++ ".sock").toList)] := by
  have segment : isSegment (id.text ++ ".sock") = true := by
    have text := id.isSegment_text
    have differs {s : String} (short : s.length < 5) : id.text ++ ".sock" ≠ s := by
      rintro rfl
      have suffix : ".sock".length = 5 := by decide
      rw [String.length_append, suffix] at short
      omega
    have nonempty : id.text ++ ".sock" ≠ "" := differs (by decide)
    have notDot : id.text ++ ".sock" ≠ "." := differs (by decide)
    have notDotDot : id.text ++ ".sock" ≠ ".." := differs (by decide)
    have slash : '/' ∉ id.text.toList := by simp_all [isSegment]
    simp [isSegment, nonempty, notDot, notDotDot, String.toList_append, slash]
  exact components_child _ (ordinary_of_isSegment segment)

end Config

namespace InstanceId

/-- A text is accepted as an id, be it on its own, in a document or within an application,
exactly when it adds itself to every path. What is made for different ids has different
components and does not lie in the directory of the other one. All of it lies below the
overlay root, so making directories there is not refused. -/
theorem keys_its_paths :
    (∀ (root : Path) (s : String),
      ((∃ id, ofString s = .ok id ∧ id.text = s) ↔ root.AddsItself s) ∧
      (∀ src (k : RawString), k.content = .ok s →
        ((∃ id, decoder src (.string k) = .ok id ∧ id.text = s) ↔ root.AddsItself s)) ∧
      ∀ src (o : Opening) (k : RawString), o.IsOf Application.record.fields "instance_id" → k.content = .ok s →
        (∃ (id : InstanceId) (a : Application),
          Application.decoder src (o.fill (.string (Raw.ofString id.text))) = .ok a) →
        ((∃ a, Application.decoder src (o.fill (.string k)) = .ok a ∧ a.instanceId.text = s) ↔
          root.AddsItself s)) ∧
    (∀ (c : Config) (layers : InstanceId → List Path) (id other : InstanceId), id ≠ other →
      (∀ path ∈ c.ipcSocketPath :: c.artifacts layers, (path id).components ≠ (path other).components) ∧
      ∀ path ∈ c.artifacts layers, ¬ (c.instanceDir other).components <+: (path id).components) ∧
    ∀ (c : Config) (layers : InstanceId → List Path) (id : InstanceId), ∀ path ∈ c.artifacts layers,
      ∀ h uid gid e, (createDirectories h c.overlayRoot (path id) uid gid).1 ≠ .error (.config e) := by
  refine ⟨?_, ?_, ?_⟩
  · intro root s
    rw [← isSegment_iff_addsItself root s]
    refine ⟨?_, ?_, ?_⟩
    · simp only [ofString_eq_ok_iff, and_self, exists_text_eq_iff]
    · intro src k content
      simp only [decoder_eq_ok_iff content, and_self, exists_text_eq_iff]
    · intro src o k isOf content read
      exact Application.decoder_fill_iff isOf content read
  · intro c layers id other ne
    have names : id.name ≠ other.name := fun same => ne (name_injective same)
    constructor
    · intro path mem same
      rcases List.mem_cons.mp mem with rfl | mem
      · rw [Config.components_ipcSocketPath, Config.components_ipcSocketPath] at same
        have last := List.append_cancel_left same
        have written := Utf8.encode_injective (Component.normal.inj (List.cons.inj last).1)
        rw [String.toList_append, String.toList_append] at written
        exact names (congrArg Utf8.encode (List.append_cancel_right written))
      · obtain ⟨ns, components⟩ := Config.components_artifact mem
        rw [components, components] at same
        have cons := List.append_cancel_left same
        exact names (Component.normal.inj (List.cons.inj cons).1)
    · intro path mem inside
      obtain ⟨ns, components⟩ := Config.components_artifact mem
      have dir : (c.instanceDir other).components = c.overlayRoot.components ++ [.normal other.name] :=
        components_child _ other.ordinary_name
      rw [components, dir, List.prefix_append_right_inj, List.cons_prefix_cons] at inside
      exact names (Component.normal.inj inside.1).symm
  · intro c layers id path mem h uid gid e failed
    obtain ⟨ns, components⟩ := Config.components_artifact mem
    have below : (path id).components = c.overlayRoot.components ++ (id.name :: ns).map .normal := components id
    obtain ⟨q, cause, other, -⟩ := createDirectories_of_error below (Prod.ext failed rfl)
    cases other

/-- An application is read with the one id as with the other, and what is made for the two
instances lies apart. -/
theorem keys_its_paths_sample :
    let named (name : String) (r : Raw) : RawString × Raw := (Raw.ofString name, r)
    let o : Opening := .member
      [named "app_id" (.string (Raw.ofString "app")), named "uid" (.number (some (.int 1000))),
        named "gid" (.number (some (.int 1000)))]
      (Raw.ofString "instance_id")
      [named "display_socket" (.string (Raw.ofString "/run/display")),
        named "storage_path" (.string (Raw.ofString "/storage"))] none
    let upper (id : InstanceId) := (Layout.ofInstance Sample.config.overlayRoot id []).upper
    (∃ a, Application.decoder .tree (o.fill (.string (Raw.ofString "second"))) = .ok a ∧
        a.instanceId.text = "second") ∧
      (upper Sample.first).components ≠ (upper Sample.second).components ∧
      ¬ (Sample.config.instanceDir Sample.second).components <+: (upper Sample.first).components := by
  intro named o upper
  obtain ⟨accepted, apart, -⟩ := keys_its_paths
  have adds : (Path.ofString "/instances").AddsItself "second" := by
    unfold Path.AddsItself
    decide +kernel
  have read : Application.decoder .tree (o.fill (.string (Raw.ofString Sample.first.text))) =
      .ok (Sample.application Sample.first) := by decide +kernel
  have mem : upper ∈ Sample.config.artifacts fun _ => [] := by simp [Config.artifacts, upper]
  obtain ⟨distinct, outside⟩ := apart Sample.config (fun _ => []) Sample.first Sample.second (by decide)
  refine ⟨?_, distinct upper (List.mem_cons_of_mem _ mem), outside upper mem⟩
  exact ((accepted _ "second").2.2 .tree o _ rfl rfl ⟨Sample.first, _, read⟩).mpr adds

end InstanceId

end Sandbox
