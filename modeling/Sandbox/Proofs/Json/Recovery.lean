import Mathlib.Data.List.Nodup
import Sandbox.Application
import Sandbox.Config
import Sandbox.Package.Basic
import Sandbox.Proofs.Generate.Sample
import Sandbox.Proofs.Json.Passing
import Sandbox.Proofs.Json.Spelling
import Sandbox.Spec.Fragment

/-!
Every value is read from what it is written as.

For each record the fields are listed as they are declared (`Application.fields` and so
on), which is what the record is written as. A value is recovered from its document, from
the text of the document, from any text of an object with the same fields, and from the
list of the values without their names (`Recovers`). A configuration file may leave out
fields; it gives the configuration on the fields that it names and the defaults on all
others, whatever else it names (`decoding_undoes_encoding`).
-/

namespace Sandbox

/-- A value is recovered from the document that it is written as and from the list of the
values of its fields, be they a document or a text. A text may name the fields in any order
and hold other members besides. -/
structure Recovers (d : Decoder α) (j : Json) (fields : List (String × Json)) (a : α) : Prop where
  document : decodeTree d j = .ok a
  printed : decodeText d (Utf8.encode j.pretty.toList) = .ok a
  object : ∀ bytes ms, Json.IsObject bytes ms → Raw.Among (.text (Json.depthLimit - 1)) fields ms →
    (∀ m ∈ fields, m.1 ∈ Raw.names ms) → decodeText d bytes = .ok a
  items : decodeTree d (.arr (fields.map (·.2))) = .ok a
  list : ∀ bytes, Json.parse bytes = .ok (.arr (fields.map (·.2))) → decodeText d bytes = .ok a

namespace Raw

variable {src : Source} {named : List (String × Json)} {ms : List (String × Json)}

theorem ofMembers_eq_map (ms : List (String × Json)) :
    ofMembers ms = ms.map fun m => (ofString m.1, ofJson m.2) := by
  induction ms with
  | nil => rfl
  | cons m ms ih => rw [ofMembers, ih, List.map_cons]

theorem names_ofMembers (ms : List (String × Json)) : names (ofMembers ms) = ms.map (·.1) := by
  rw [ofMembers_eq_map, names, List.filterMap_map, ← List.filterMap_eq_map]
  rfl

/-- Members in order are among named documents, if they agree with those of their names. -/
theorem among_ofMembers (ordered : Members.Sorted ms) (agree : ∀ m ∈ ms, ∀ n ∈ named, m.1 = n.1 → m.2 = n.2)
    (plain : ∀ n ∈ named, n.2.Sorted ∧ src.Admits n.2) : Among src named (ofMembers ms) where
  readable := by
    rw [ofMembers_eq_map, List.forall_mem_map]
    exact fun m _ => ⟨m.1, rfl⟩
  once := by
    rw [names_ofMembers]
    refine List.Nodup.filter _ ((List.pairwise_map.mpr ordered).imp fun lt same => ?_)
    exact String.lt_irrefl _ (same ▸ lt)
  value := by
    rw [ofMembers_eq_map, List.forall_mem_map]
    intro m mem name j known key
    obtain rfl : m.2 = j := agree m mem (name, j) known (Except.ok.inj key)
    exact toJson_ofJson (plain _ known).1 (plain _ known).2

/-- Named documents are among themselves, put in order. -/
theorem among_ofList (nodup : (named.map (·.1)).Nodup) (plain : ∀ n ∈ named, n.2.Sorted ∧ src.Admits n.2) :
    Among src named (ofMembers (Members.ofList named)) := by
  refine among_ofMembers (Members.sorted_ofList named) (fun m mem n known same => ?_) plain
  exact congrArg Prod.snd (List.inj_on_of_nodup_map nodup (Members.mem_ofList mem) known same)

end Raw

theorem Members.exists_get?_of_mem {α : Type} {ms : List (String × α)} {m : String × α} (mem : m ∈ ms) :
    ∃ a, get? m.1 ms = some a := by
  induction ms with
  | nil => cases mem
  | cons first ms ih =>
      rw [get?_cons]
      split
      · exact ⟨_, rfl⟩
      · next ne =>
          rcases List.mem_cons.mp mem with rfl | later
          · exact absurd rfl ne
          · exact ih later

namespace Record

variable {α : Type} {r : Record α} {named : List (String × Json)} {given : String → Prop} {a : α} {type : String}
  {src inner : Source}

theorem Takes.decoder_ofList (takes : r.Takes named given a) (nodup : (named.map (·.1)).Nodup)
    (all : ∀ m ∈ named, given m.1) (entered : src.enter = .ok inner) (admitted : ∀ m ∈ named, inner.Admits m.2) :
    r.decoder type src (.ofJson (.ofList named)) = .ok a := by
  refine takes.decoder_object entered (Raw.among_ofList nodup fun m mem => ?_) ?_ fun m mem => ?_
  · exact ⟨(plain_of_accepts takes.fields m mem).1, admitted m mem⟩
  · rw [Raw.ofMembers_eq_map, List.forall_mem_map]
    exact fun m _ => Raw.skip_ofJson m.2
  · refine iff_of_true (all m mem) ?_
    obtain ⟨j, found⟩ := Members.exists_get?_of_mem (List.mem_reverse.mpr mem)
    rw [← Members.get?_ofList] at found
    rw [Raw.names_ofMembers]
    exact List.mem_map.mpr ⟨_, Members.mem_of_get? found, rfl⟩

theorem decodeText_of_whole {d : Decoder α} {bytes : List UInt8} {v : Raw}
    (text : Json.readText (Utf8.scan bytes) = ⟨v, false⟩) (ok : d (.text Json.depthLimit) v = .ok a) :
    decodeText d bytes = .ok a := by
  rw [decodeText, text]
  dsimp only
  rw [ok]
  rfl

/-- A value that a record takes from its fields is recovered from them. -/
theorem Takes.recovers (takes : r.Takes named given a) (nodup : (named.map (·.1)).Nodup)
    (all : ∀ m ∈ named, given m.1) : Recovers (r.decoder type) (.ofList named) named a where
  document := takes.decoder_ofList nodup all rfl fun _ _ => trivial
  printed := by
    have plain := plain_of_accepts takes.fields
    have whole : (Json.ofList named).Integral :=
      Json.integral_obj.mpr fun m mem => (plain m (Members.mem_ofList mem)).2.1
    refine decodeText_of_whole (Json.readText_pretty whole) (takes.decoder_ofList nodup all rfl fun m mem => ?_)
    exact Nat.le_trans (plain m mem).2.2 (by decide)
  object := by
    intro bytes ms object among present
    refine decodeText_of_whole object (takes.decoder_object rfl among object.skip fun m mem => ?_)
    exact iff_of_true (all m mem) (present m mem)
  items := by
    have sorted : (Json.arr (named.map (·.2))).Sorted := by
      rw [Json.sorted_arr, List.forall_mem_map]
      exact fun m mem => (plain_of_accepts takes.fields m mem).1
    have admitted : Source.tree.Admits (Json.arr (named.map (·.2))) := trivial
    exact takes.decoder_list nodup all (Raw.toJson_ofJson sorted admitted)
  list := by
    intro bytes parsed
    unfold Json.parse at parsed
    dsimp only at parsed
    split at parsed
    · cases parsed
    next j read =>
    split at parsed
    · cases parsed
    next whole =>
    cases parsed
    rw [decodeText, takes.decoder_list nodup all read]
    exact if_neg whole

end Record

/-! ### The fields of each record -/

theorem InstanceId.undoes (id : InstanceId) : InstanceId.decoder.Undoes id.toJson id := by
  have text := Decoder.undoes_string id.text
  refine ⟨text.sorted, text.whole, text.shallow, fun src v ok => ?_⟩
  rw [decoder, text.reads src v ok]
  change (ofString id.text).mapError _ = _
  rw [ofString, dif_pos id.isSegment_text]
  rfl

theorem DeviceKind.undoes (k : DeviceKind) : DeviceKind.decoder.Undoes k.toJson k := by
  cases k <;> exact Decoder.undoes_enumeration rfl

theorem Decoder.undoes_strings (l : List String) : (list string).Undoes (.strings l) l :=
  undoes_list undoes_string (fun _ => rfl) l

section

open Record Decoder

/-- The fields of an application, as they are declared. -/
def Application.fields (a : Application) : List (String × Json) := [
  ("app_id", .str a.appId),
  ("uid", .nat a.uid.toNat),
  ("gid", .nat a.gid.toNat),
  ("instance_id", a.instanceId.toJson),
  ("display_socket", .str a.displaySocket.display),
  ("storage_path", .str a.storagePath.display)]

theorem Application.takes (a : Application) (socket : a.displaySocket.text?.isSome)
    (storage : a.storagePath.text?.isSome) : Application.record.Takes a.fields (fun _ => True) a :=
  takes_pure Application.mk
    |>.required trivial (undoes_string a.appId)
    |>.required trivial (undoes_uint32 a.uid)
    |>.required trivial (undoes_uint32 a.gid)
    |>.required trivial (InstanceId.undoes a.instanceId)
    |>.required trivial (undoes_path socket)
    |>.required trivial (undoes_path storage)

/-- The fields of a package, as they are declared. -/
def Package.fields (p : Package) : List (String × Json) := [
  ("metadata_path", .str p.metadataPath.display),
  ("mount_path", .str p.mountPath.display)]

theorem Package.takes (p : Package) (metadata : p.metadataPath.text?.isSome) (mount : p.mountPath.text?.isSome) :
    Package.record.Takes p.fields (fun _ => True) p :=
  takes_pure Package.mk
    |>.required trivial (undoes_path metadata)
    |>.required trivial (undoes_path mount)

/-- The fields of a device node, as they are declared. -/
def Device.fields (d : Device) : List (String × Json) := [
  ("path", .str d.path.display),
  ("kind", d.kind.toJson),
  ("major", .nat d.major.toNat),
  ("minor", .nat d.minor.toNat)]

theorem Device.takes (d : Device) (path : d.path.text?.isSome) : Device.record.Takes d.fields (fun _ => True) d :=
  takes_pure Device.mk
    |>.required trivial (undoes_path path)
    |>.required trivial (DeviceKind.undoes d.kind)
    |>.required trivial (undoes_uint64 d.major)
    |>.required trivial (undoes_uint64 d.minor)

/-- The fields of a mount, as they are declared. -/
def Mount.fields (m : Mount) : List (String × Json) := [
  ("destination", .str m.destination),
  ("type", .str m.type),
  ("source", .str m.source),
  ("options", .strings m.options)]

theorem Mount.takes (m : Mount) : Mount.record.Takes m.fields (fun _ => True) m :=
  takes_pure Mount.mk
    |>.required trivial (undoes_string m.destination)
    |>.required trivial (undoes_string m.type)
    |>.required trivial (undoes_string m.source)
    |>.required trivial (undoes_strings m.options)

/-- The fields of a device node in a specification, as they are declared. -/
def DeviceEntry.fields (d : DeviceEntry) : List (String × Json) := [
  ("path", .str d.path),
  ("type", .str d.type),
  ("major", .nat d.major.toNat),
  ("minor", .nat d.minor.toNat),
  ("fileMode", .nat d.fileMode.toNat),
  ("uid", .nat d.uid.toNat),
  ("gid", .nat d.gid.toNat)]

theorem DeviceEntry.takes (d : DeviceEntry) : DeviceEntry.record.Takes d.fields (fun _ => True) d :=
  takes_pure DeviceEntry.mk
    |>.required trivial (undoes_string d.path)
    |>.required trivial (undoes_string d.type)
    |>.required trivial (undoes_uint64 d.major)
    |>.required trivial (undoes_uint64 d.minor)
    |>.required trivial (undoes_uint32 d.fileMode)
    |>.required trivial (undoes_uint32 d.uid)
    |>.required trivial (undoes_uint32 d.gid)

/-- The fields of a rule on a device, as they are declared. -/
def DeviceRule.fields (r : DeviceRule) : List (String × Json) := [
  ("allow", .bool r.allow),
  ("type", .str r.type),
  ("major", .nat r.major.toNat),
  ("minor", .nat r.minor.toNat),
  ("access", .str r.access)]

theorem DeviceRule.takes (r : DeviceRule) : DeviceRule.record.Takes r.fields (fun _ => True) r :=
  takes_pure DeviceRule.mk
    |>.required trivial (undoes_bool r.allow)
    |>.required trivial (undoes_string r.type)
    |>.required trivial (undoes_uint64 r.major)
    |>.required trivial (undoes_uint64 r.minor)
    |>.required trivial (undoes_string r.access)

/-- The fields of a mapping, as they are declared. -/
def IdMapping.fields (m : IdMapping) : List (String × Json) := [
  ("containerID", .nat m.containerId.toNat),
  ("hostID", .nat m.hostId.toNat),
  ("size", .nat m.size.toNat)]

theorem IdMapping.takes (m : IdMapping) : IdMapping.record.Takes m.fields (fun _ => True) m :=
  takes_pure IdMapping.mk
    |>.required trivial (undoes_uint32 m.containerId)
    |>.required trivial (undoes_uint32 m.hostId)
    |>.required trivial (undoes_uint32 m.size)

/-- The fields of a hook, as they are declared. -/
def Hook.fields (h : Hook) : List (String × Json) := [
  ("path", .str h.path),
  ("args", .strings h.args)]

theorem Hook.takes (h : Hook) : Hook.record.Takes h.fields (fun _ => True) h :=
  takes_pure Hook.mk
    |>.required trivial (undoes_string h.path)
    |>.required trivial (undoes_strings h.args)

/-- The fields of a user, as they are declared. -/
def User.fields (u : User) : List (String × Json) := [
  ("uid", .nat u.uid.toNat),
  ("gid", .nat u.gid.toNat),
  ("additionalGids", .arr (u.additionalGids.map fun g => .nat g.toNat))]

theorem User.takes (u : User) : User.record.Takes u.fields (fun _ => True) u :=
  takes_pure User.mk
    |>.required trivial (undoes_uint32 u.uid)
    |>.required trivial (undoes_uint32 u.gid)
    |>.required trivial (undoes_list undoes_uint32 (fun _ => rfl) u.additionalGids)

/-- The fields of a configuration, as they are declared. -/
def Config.fields (c : Config) : List (String × Json) := [
  ("baseTemplate", .str c.baseTemplate.display),
  ("graphicsDescriptor", .str c.graphicsDescriptor.display),
  ("overlayRoot", .str c.overlayRoot.display),
  ("ipcSocketDir", .str c.ipcSocketDir.display),
  ("launcherPath", .str c.launcherPath.display),
  ("launcherName", .str c.launcherName),
  ("workingDir", .str c.workingDir),
  ("storageContainerPath", .str c.storageContainerPath),
  ("videoGroup", .str c.videoGroup),
  ("defaultVideoGid", .nat c.defaultVideoGid.toNat),
  ("serviceUser", .str c.serviceUser)]

/-- The paths of a configuration. -/
def Config.paths (c : Config) : List Path :=
  [c.baseTemplate, c.graphicsDescriptor, c.overlayRoot, c.ipcSocketDir, c.launcherPath]

/-- A configuration on the fields with some names, and the default on the others. -/
def Config.only (c : Config) (names : List String) : Config where
  baseTemplate := if "baseTemplate" ∈ names then c.baseTemplate else default.baseTemplate
  graphicsDescriptor := if "graphicsDescriptor" ∈ names then c.graphicsDescriptor else default.graphicsDescriptor
  overlayRoot := if "overlayRoot" ∈ names then c.overlayRoot else default.overlayRoot
  ipcSocketDir := if "ipcSocketDir" ∈ names then c.ipcSocketDir else default.ipcSocketDir
  launcherPath := if "launcherPath" ∈ names then c.launcherPath else default.launcherPath
  launcherName := if "launcherName" ∈ names then c.launcherName else default.launcherName
  workingDir := if "workingDir" ∈ names then c.workingDir else default.workingDir
  storageContainerPath :=
    if "storageContainerPath" ∈ names then c.storageContainerPath else default.storageContainerPath
  videoGroup := if "videoGroup" ∈ names then c.videoGroup else default.videoGroup
  defaultVideoGid := if "defaultVideoGid" ∈ names then c.defaultVideoGid else default.defaultVideoGid
  serviceUser := if "serviceUser" ∈ names then c.serviceUser else default.serviceUser

theorem Config.takes (c : Config) (texts : ∀ p ∈ c.paths, p.text?.isSome) (names : List String) :
    Config.record.Takes c.fields (· ∈ names) (c.only names) := by
  simp only [paths, List.forall_mem_cons] at texts
  obtain ⟨template, descriptor, root, socket, launcher, -⟩ := texts
  exact takes_pure Config.mk
    |>.defaulting (undoes_path template)
    |>.defaulting (undoes_path descriptor)
    |>.defaulting (undoes_path root)
    |>.defaulting (undoes_path socket)
    |>.defaulting (undoes_path launcher)
    |>.defaulting (undoes_string c.launcherName)
    |>.defaulting (undoes_string c.workingDir)
    |>.defaulting (undoes_string c.storageContainerPath)
    |>.defaulting (undoes_string c.videoGroup)
    |>.defaulting (undoes_uint32 c.defaultVideoGid)
    |>.defaulting (undoes_string c.serviceUser)

end

/-! ### Configurations in files -/

namespace Config

variable {c : Config} {h : Host} {p : Path} {bytes : List UInt8} {ms : List (RawString × Raw)}

theorem only_names (c : Config) : c.only (c.fields.map (·.1)) = c := by
  simp [only, fields]

theorem recovers (texts : ∀ p ∈ c.paths, p.text?.isSome) : Recovers decoder c.toJson c.fields c := by
  have takes := c.takes texts (c.fields.map (·.1))
  rw [only_names] at takes
  exact takes.recovers (by simp [fields]) fun m mem => List.mem_map_of_mem mem

/-- A file gives a configuration on the fields that it names. -/
theorem load_only (texts : ∀ p ∈ c.paths, p.text?.isSome) (loaded : h.loadText p = .ok bytes)
    (object : Json.IsObject bytes ms) (among : Raw.Among (.text (Json.depthLimit - 1)) c.fields ms) :
    load h p = .ok (c.only (Raw.names ms)) := by
  have decoded : decodeText decoder bytes = .ok (c.only (Raw.names ms)) :=
    Record.decodeText_of_whole object ((c.takes texts _).decoder_object rfl among object.skip fun _ _ => Iff.rfl)
  rw [load, Host.loadValue, loaded]
  dsimp only
  rw [decoded]
  rfl

end Config

/-- Each record is recovered from what it is written as. A configuration file with some
fields of a configuration, beside members with other names, gives the configuration on
these fields and the default on all others. -/
theorem decoding_undoes_encoding :
    (∀ a : Application, a.displaySocket.text?.isSome → a.storagePath.text?.isSome →
      Recovers Application.decoder a.toJson a.fields a) ∧
    (∀ p : Package, p.metadataPath.text?.isSome → p.mountPath.text?.isSome →
      Recovers Package.decoder p.toJson p.fields p) ∧
    (∀ d : Device, d.path.text?.isSome → Recovers Device.decoder d.toJson d.fields d) ∧
    (∀ c : Config, (∀ p ∈ c.paths, p.text?.isSome) → Recovers Config.decoder c.toJson c.fields c) ∧
    (∀ m : Mount, Recovers Mount.decoder m.toJson m.fields m) ∧
    (∀ d : DeviceEntry, Recovers DeviceEntry.decoder d.toJson d.fields d) ∧
    (∀ r : DeviceRule, Recovers DeviceRule.decoder r.toJson r.fields r) ∧
    (∀ m : IdMapping, Recovers IdMapping.decoder m.toJson m.fields m) ∧
    (∀ h : Hook, Recovers Hook.decoder h.toJson h.fields h) ∧
    (∀ u : User, Recovers User.decoder u.toJson u.fields u) ∧
    ∀ (c : Config) (h : Host) (p : Path) (bytes : List UInt8) (ms : List (RawString × Raw)),
      (∀ p ∈ c.paths, p.text?.isSome) → h.loadText p = .ok bytes → Json.IsObject bytes ms →
      Raw.Among (.text (Json.depthLimit - 1)) c.fields ms → Config.load h p = .ok (c.only (Raw.names ms)) := by
  refine ⟨fun a socket storage => ?_, fun p metadata mount => ?_, fun d path => ?_, fun c => Config.recovers,
    fun m => ?_, fun d => ?_, fun r => ?_, fun m => ?_, fun h => ?_, fun u => ?_,
    fun c h p bytes ms => Config.load_only⟩
  · exact (a.takes socket storage).recovers (by simp [Application.fields]) fun _ _ => trivial
  · exact (p.takes metadata mount).recovers (by simp [Package.fields]) fun _ _ => trivial
  · exact (d.takes path).recovers (by simp [Device.fields]) fun _ _ => trivial
  · exact m.takes.recovers (by simp [Mount.fields]) fun _ _ => trivial
  · exact d.takes.recovers (by simp [DeviceEntry.fields]) fun _ _ => trivial
  · exact r.takes.recovers (by simp [DeviceRule.fields]) fun _ _ => trivial
  · exact m.takes.recovers (by simp [IdMapping.fields]) fun _ _ => trivial
  · exact h.takes.recovers (by simp [Hook.fields]) fun _ _ => trivial
  · exact u.takes.recovers (by simp [User.fields]) fun _ _ => trivial

/-! ### A file with two fields of a configuration -/

namespace Sample

/-- A configuration other than the default. -/
def relocated : Config :=
  { config with overlayRoot := .ofString "/data/appcell", defaultVideoGid := 27 }

/-- Two of its fields, and a member that is none. -/
def relocation : List (String × Json) :=
  [("defaultVideoGid", .nat 27), ("other", .arr [.null]), ("overlayRoot", .str "/data/appcell")]

/-- The bytes of a file with these members. -/
def relocationBytes : List UInt8 :=
  Utf8.encode (Json.obj relocation).pretty.toList

/-- The device with this configuration file. -/
def relocating : Host :=
  host [([name "appcell.json"], .newFile relocationBytes)]

end Sample

open Sample in
theorem decoding_undoes_encoding_sample :
    decodeTree Application.decoder (application first).toJson = .ok (application first) ∧
      Config.load relocating (.ofString "/appcell.json") =
        .ok { Config.default with overlayRoot := .ofString "/data/appcell", defaultVideoGid := 27 } := by
  have texts : ∀ p ∈ relocated.paths, p.text?.isSome := by
    simp [Config.paths, relocated, config, Config.default]
  have plain : ∀ n ∈ relocated.fields, n.2.Sorted ∧ (Source.text (Json.depthLimit - 1)).Admits n.2 := by
    intro n mem
    obtain ⟨sorted, -, shallow⟩ := Record.plain_of_accepts (relocated.takes texts []).fields n mem
    exact ⟨sorted, Nat.le_trans shallow (by decide)⟩
  have among : Raw.Among (.text (Json.depthLimit - 1)) relocated.fields (Raw.ofMembers relocation) :=
    Raw.among_ofMembers (by decide +kernel) (by decide +kernel) plain
  have whole : (Json.obj relocation).Integral := by
    simp only [relocation, Json.integral_obj, List.forall_mem_cons]
    exact ⟨Decoder.integral_nat (by decide), Json.integral_arr.mpr (by simp [Json.Integral]), trivial,
      List.forall_mem_nil _⟩
  have loaded : relocating.loadText (.ofString "/appcell.json") = .ok relocationBytes := by
    have opened : relocating.openForReading (.ofString "/appcell.json") = .ok (.file relocationBytes) := rfl
    rw [Host.loadText, opened]
    simp [Host.readContent, relocationBytes]
  obtain ⟨app, -, -, -, -, -, -, -, -, -, load⟩ := decoding_undoes_encoding
  refine ⟨(app (application first) rfl rfl).document, ?_⟩
  refine (load relocated _ _ _ _ texts loaded (Json.readText_pretty whole) among).trans ?_
  decide +kernel

end Sandbox
