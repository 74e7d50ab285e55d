import Sandbox.Generate.Graphics
import Sandbox.Proofs.Generate.Sample
import Sandbox.Proofs.Spec.Fitting
import Sandbox.Proofs.Spec.Gains

/-!
What graphics add to a specification.

Whether a grant fits is looked up before anything is written, on a specification that
each write then changes. No write makes a list unfit for the next one, so a grant that
fits is added to the end (`Graphics.Grant.apply_of_fits`), and one that does not fit leaves no
trace (`Graphics.Grant.apply_of_not_fits`).

What a grant adds is laid down in a table of four lists (`Graphics.Grant.additions`). For
what graphics need, the table is spelled out in terms of their nodes, groups and files
(`Graphics.additions`). It decides on the fit, it is what is added, and the report counts it
(`Graphics.added_as_whole_or_not_at_all`).
-/

namespace Sandbox

/-! ### Items, field by field -/

namespace Item

/-- The node for a device, which anyone may read and write. -/
def node (d : Device) : Json :=
  .ofList [("path", .str d.path.display), ("type", .str (match d.kind with | .character => "c" | .block => "b")),
    ("major", .nat d.major.toNat), ("minor", .nat d.minor.toNat), ("fileMode", .nat 0o666), ("uid", .nat 0),
    ("gid", .nat 0)]

/-- The rule that allows every use of a device. -/
def rule (d : Device) : Json :=
  .ofList [("allow", .bool true), ("type", .str (match d.kind with | .character => "c" | .block => "b")),
    ("major", .nat d.major.toNat), ("minor", .nat d.minor.toNat), ("access", .str "rwm")]

/-- The mapping of one number. -/
def mapping (inside outside : UInt32) : Json :=
  .ofList [("containerID", .nat inside.toNat), ("hostID", .nat outside.toNat), ("size", .nat 1)]

/-- The mount of a directory or file, and all that is mounted in it, with more options. -/
def bind (source destination : String) (more : List String) : Json :=
  .ofList [("destination", .str destination), ("type", .str "bind"), ("source", .str source),
    ("options", .strings (["rbind", "nosuid", "nodev"] ++ more))]

/-- The hook that runs a command. -/
def hook (path : String) (args : List String) : Json :=
  .ofList [("path", .str path), ("args", .strings args)]

/-- The user that is nobody but the first of an instance, in one more group. -/
def user (gid : UInt32) : Json :=
  .ofList [("uid", .nat 0), ("gid", .nat 0), ("additionalGids", .arr [.nat gid.toNat])]

end Item

namespace Graphics

open Spec

variable {s : Spec}

namespace Grant

/-! ### Fit -/

/-- What is granted has a place in a specification. -/
structure Fits (s : Spec) (g : Grant) : Prop where
  devices : g.devices ≠ [] → s.TakesItems ["linux", "devices"] ∧ s.TakesItems ["linux", "resources", "devices"]
  gids : g.gids ≠ [] → s.TakesItems ["linux", "gidMappings"]
  mounts : g.mounts ≠ [] → s.TakesItems ["mounts"]

variable {g : Grant}

theorem bind_unit_ok_iff {ε : Type} {x y : Except ε Unit} :
    (x >>= fun _ => y) = .ok () ↔ x = .ok () ∧ y = .ok () := by
  cases x with
  | error e => simp [bind, Except.bind]
  | ok _ => simp [bind, Except.bind]

theorem check_eq_ok_iff : g.check s = .ok () ↔ g.Fits s := by
  have further {k : String} {ks : List String} : k :: ks ≠ [] := List.cons_ne_nil k ks
  have fits : g.Fits s ↔ (g.devices ≠ [] → s.TakesItems ["linux", "devices"] ∧
        s.TakesItems ["linux", "resources", "devices"]) ∧
      (g.gids ≠ [] → s.TakesItems ["linux", "gidMappings"]) ∧ (g.mounts ≠ [] → s.TakesItems ["mounts"]) :=
    ⟨fun h => ⟨h.devices, h.gids, h.mounts⟩, fun h => ⟨h.1, h.2.1, h.2.2⟩⟩
  rw [fits]
  unfold check
  rcases g with ⟨_ | ⟨_, _⟩, _ | ⟨_, _⟩, _ | ⟨_, _⟩⟩ <;>
    simp [bind_unit_ok_iff, Spec.checkList_eq_ok_iff further, pure, Except.pure, and_assoc]

instance : Decidable (g.Fits s) :=
  decidable_of_iff _ check_eq_ok_iff

theorem fits_of_mem_steps (fits : g.Fits s) {step : Spec.Step} (mem : step ∈ g.steps) : step.Fits s := by
  simp only [steps, List.mem_append, List.mem_map] at mem
  rcases mem with (⟨d, mem, rfl⟩ | ⟨gid, mem, rfl⟩) | ⟨m, mem, rfl⟩
  · exact fits.devices (List.ne_nil_of_mem mem)
  · exact fits.gids (List.ne_nil_of_mem mem)
  · exact fits.mounts (List.ne_nil_of_mem mem)

/-- Once it is known that a grant fits, none of its steps fails. -/
theorem apply_of_fits (fits : g.Fits s) : ∃ t, s.run g.steps = (.ok (), t) ∧ g.apply s = (.ok (), t) := by
  have each : (s.run g.steps).1 = .ok () := run_eq_ok_iff.mpr fun step mem => fits_of_mem_steps fits mem
  have run : s.run g.steps = (.ok (), (s.run g.steps).2) := Prod.ext each rfl
  refine ⟨_, run, ?_⟩
  rw [apply, check_eq_ok_iff.mpr fits]
  exact run

/-- What does not fit is refused, and nothing of it is added. -/
theorem apply_of_not_fits (bad : ¬ g.Fits s) : ∃ e, g.check s = .error e ∧ g.apply s = (.error e, s) := by
  rw [← check_eq_ok_iff] at bad
  cases checked : g.check s with
  | error e => exact ⟨e, rfl, by rw [apply, checked, andThen]⟩
  | ok _ => exact absurd checked bad

/-! ### Additions -/

/-- What a grant adds, and to which lists. -/
def additions (g : Grant) : List (List String × List Json) :=
  [(["linux", "devices"], g.devices.map fun d => (DeviceEntry.ofDevice d).toJson),
    (["linux", "resources", "devices"], g.devices.map fun d => (DeviceRule.ofDevice d).toJson),
    (["linux", "gidMappings"], g.gids.map fun gid => (IdMapping.single gid gid).toJson),
    (["mounts"], g.mounts.map Mount.toJson)]

/-- A grant fits if each list that it has something for takes items. -/
theorem fits_iff : g.Fits s ↔ ∀ entry ∈ g.additions, entry.2 ≠ [] → s.TakesItems entry.1 := by
  simp only [additions, List.forall_mem_cons, List.not_mem_nil, false_implies, implies_true, and_true,
    ne_eq, List.map_eq_nil_iff]
  constructor
  · intro fits
    exact ⟨fun some => (fits.devices some).1, fun some => (fits.devices some).2, fits.gids, fits.mounts⟩
  · rintro ⟨devices, rules, gids, mounts⟩
    exact ⟨fun some => ⟨devices some, rules some⟩, gids, mounts⟩

/-- The steps of a grant give what the table says. -/
theorem flatMap_gives_of_mem_additions {path : List String} {items : List Json}
    (mem : (path, items) ∈ g.additions) : g.steps.flatMap (Spec.Step.gives path) = items := by
  simp only [additions, List.mem_cons, List.not_mem_nil, or_false, Prod.mk.injEq] at mem
  simp only [steps, List.flatMap_append]
  rcases mem with ⟨rfl, rfl⟩ | ⟨rfl, rfl⟩ | ⟨rfl, rfl⟩ | ⟨rfl, rfl⟩
  case inl | inr.inl =>
    rw [flatMap_gives_map fun _ => rfl, flatMap_gives_map_eq_nil fun _ => rfl, flatMap_gives_map_eq_nil fun _ => rfl,
      List.append_nil, List.append_nil]
  case inr.inr.inl =>
    rw [flatMap_gives_map_eq_nil fun _ => rfl, flatMap_gives_map fun _ => rfl, flatMap_gives_map_eq_nil fun _ => rfl,
      List.append_nil, List.nil_append]
  case inr.inr.inr =>
    rw [flatMap_gives_map_eq_nil fun _ => rfl, flatMap_gives_map_eq_nil fun _ => rfl, flatMap_gives_map fun _ => rfl,
      List.append_nil, List.nil_append]

theorem flatMap_gives_mounts_steps (g : Grant) :
    g.steps.flatMap (Spec.Step.gives ["mounts"]) = g.mounts.map Mount.toJson :=
  flatMap_gives_of_mem_additions (by simp [additions])

theorem flatMap_gives_gidMappings_steps (g : Grant) :
    g.steps.flatMap (Spec.Step.gives ["linux", "gidMappings"]) =
      g.gids.map fun gid => (IdMapping.single gid gid).toJson :=
  flatMap_gives_of_mem_additions (by simp [additions])

/-- They do nothing but append to the lists of the table. -/
theorem additions_of_mem_steps {step : Spec.Step} (mem : step ∈ g.steps) :
    step.additions ≠ [] ∧ ∀ addition ∈ step.additions, ∃ entry ∈ g.additions, entry.1 = addition.1 := by
  simp only [steps, List.mem_append, List.mem_map] at mem
  rcases mem with (⟨d, -, rfl⟩ | ⟨gid, -, rfl⟩) | ⟨m, -, rfl⟩ <;> simp [Spec.Step.additions, additions]

theorem listPlace_of_mem_additions : ∀ entry ∈ g.additions, ListPlace entry.1 := by
  simp only [additions, List.forall_mem_cons, List.not_mem_nil, false_implies, implies_true, and_true]
  exact ⟨.devices, .rules, .gidMappings, .mounts⟩

theorem adds_of_run_steps {t : Spec} (run : s.run g.steps = (.ok (), t)) : Adds g.additions s t :=
  adds_of_run run (fun _ mem => (additions_of_mem_steps mem).1) listPlace_of_mem_additions
    (fun _ => flatMap_gives_of_mem_additions) fun _ mem => (additions_of_mem_steps mem).2

/-- To other lists a grant has nothing to give. -/
theorem flatMap_gives_steps {path : List String} (other : ∀ entry ∈ g.additions, entry.1 ≠ path) :
    g.steps.flatMap (Spec.Step.gives path) = [] := by
  refine List.flatMap_eq_nil_iff.mpr fun step mem => Spec.Step.gives_eq_nil fun addition there => ?_
  obtain ⟨entry, listed, same⟩ := (additions_of_mem_steps mem).2 addition there
  rw [← same]
  exact other entry listed

end Grant

/-- The source and the destination that an entry for a file names, if it is well formed: both
are texts, and neither is empty. -/
def place? (entry : Json) : Option (String × String) :=
  match entry.member? "source", entry.member? "destination" with
  | some (.str source), some (.str destination) =>
    if source = "" ∨ destination = "" then none else some (source, destination)
  | _, _ => none

/-- What graphics add, and to which lists: a node and a rule for each device that is found,
a mapping to itself for each group that is known, and a mount for reading only for each
entry for a file that is well formed. -/
def additions (g : Graphics) (h : Host) (accounts : Accounts) : List (List String × List Json) :=
  let devices := g.devNodes.filterMap fun p => (h.device p).toOption
  [(["linux", "devices"], devices.map Item.node),
    (["linux", "resources", "devices"], devices.map Item.rule),
    (["linux", "gidMappings"],
      (g.groupIds.filterMap fun name => (accounts.group name).toOption).map fun gid => Item.mapping gid gid),
    (["mounts"], (g.files.filterMap place?).map fun place => Item.bind place.1 place.2 ["ro"])]

theorem filled?_eq (entry : Json) (name : String) :
    filled? entry name = match entry.member? name with
      | some (.str t) => if t = "" then none else some t
      | _ => none := by
  unfold filled?
  split
  case h_1 t found => by_cases empty : t = "" <;> simp [found, Json.str?, empty]
  case h_2 other =>
    rcases found : entry.member? name with _ | _ | _ | _ | t | _ | _
    case some.str => exact absurd found (other t)
    all_goals rfl

theorem mount?_eq (entry : Json) :
    mount? entry = (place? entry).map fun place => .bindReadOnly place.1 place.2 := by
  unfold mount? place?
  rw [filled?_eq, filled?_eq]
  rcases entry.member? "source" with _ | _ | _ | _ | source | _ | _
  case some.str =>
    by_cases s : source = ""
    · rcases entry.member? "destination" with _ | _ | _ | _ | destination | _ | _ <;> simp [s]
    · rcases entry.member? "destination" with _ | _ | _ | _ | destination | _ | _
      case some.str => by_cases d : destination = "" <;> simp [s, d]
      all_goals simp [s]
  all_goals rfl

theorem map_toJson_filterMap_mount? (files : List Json) :
    (files.filterMap mount?).map Mount.toJson =
      (files.filterMap place?).map fun place => Item.bind place.1 place.2 ["ro"] := by
  rw [List.map_filterMap, List.map_filterMap]
  refine List.filterMap_congr fun entry _ => ?_
  rw [mount?_eq, Option.map_map]
  rfl

/-- A grant adds what the needs that were found come to. -/
theorem additions_grant (g : Graphics) (h : Host) (accounts : Accounts) :
    (g.grant h accounts).additions = g.additions h accounts := by
  unfold Grant.additions additions grant
  rw [map_toJson_filterMap_mount?]
  rfl

theorem apply_of_apply_grant {g : Graphics} {h : Host} {accounts : Accounts} {t : Spec}
    {outcome : Except ConfigError Unit} (applied : (g.grant h accounts).apply s = (outcome, t)) :
    g.apply h accounts s = (outcome.map fun _ => (g.grant h accounts).report, t) := by
  simp only [apply, applied]

/-- Graphics are added as a whole or not at all, and what is reported is what was added.
They are refused exactly where a list that they have something for cannot take it, and
then the check says so before anything is written. Otherwise every step of the grant
succeeds, the four lists have what was found behind what they had, in the order of the
descriptor, and besides them only the sections on the way to a list with new items are
made. -/
theorem added_as_whole_or_not_at_all (g : Graphics) (h : Host) (accounts : Accounts) (s : Spec) :
    (∃ entry ∈ g.additions h accounts, entry.2 ≠ [] ∧ ¬ s.TakesItems entry.1) ∧
        (∃ e, (g.grant h accounts).check s = .error e ∧ g.apply h accounts s = (.error e, s)) ∨
      (∀ entry ∈ g.additions h accounts, entry.2 ≠ [] → s.TakesItems entry.1) ∧
        ∃ t, g.apply h accounts s =
            (.ok ⟨(g.devNodes.filterMap fun p => (h.device p).toOption).length,
              (g.groupIds.filterMap fun name => (accounts.group name).toOption).length,
              (g.files.filterMap place?).length⟩, t) ∧
          s.run (g.grant h accounts).steps = (.ok (), t) ∧ Adds (g.additions h accounts) s t := by
  rw [← additions_grant]
  by_cases fits : (g.grant h accounts).Fits s
  · obtain ⟨t, run, applied⟩ := Grant.apply_of_fits fits
    have files : (g.files.filterMap mount?).length = (g.files.filterMap place?).length := by
      rw [funext mount?_eq, ← List.map_filterMap, List.length_map]
    have reported : (g.grant h accounts).report =
        ⟨(g.devNodes.filterMap fun p => (h.device p).toOption).length,
          (g.groupIds.filterMap fun name => (accounts.group name).toOption).length,
          (g.files.filterMap place?).length⟩ := by
      rw [← files]
      rfl
    refine .inr ⟨Grant.fits_iff.mp fits, t, ?_, run, Grant.adds_of_run_steps run⟩
    rw [← reported]
    exact apply_of_apply_grant applied
  · obtain ⟨e, checked, applied⟩ := Grant.apply_of_not_fits fits
    have unfit : ∃ entry ∈ (g.grant h accounts).additions, entry.2 ≠ [] ∧ ¬ s.TakesItems entry.1 := by
      simpa [Grant.fits_iff] using fits
    exact .inl ⟨unfit, e, checked, apply_of_apply_grant applied⟩

/-- Of two nodes, two groups and two entries for files, one each comes to something. Where
the mounts are no list, a section for devices is not even made. -/
theorem added_as_whole_or_not_at_all_sample :
    let h := Sample.host [([Sample.name "card"], ⟨.device .character 226 1, .root, 0o660⟩)]
    let accounts : Accounts := ⟨[("video", 44)], []⟩
    let g : Graphics := ⟨[.ofString "/none", .ofString "/card"], ["nobody", "video"],
      [.ofList [("source", .str "/lib"), ("destination", .str "/lib64")], .ofList [("source", .str "/lib")]]⟩
    let s : Spec := ⟨[("mounts", .arr [.str "proc"])]⟩
    (∃ t, g.apply h accounts s = (.ok ⟨1, 1, 1⟩, t) ∧
      t.value? ["linux", "devices"] = some (.arr [.obj [("fileMode", .nat 0o666), ("gid", .nat 0),
        ("major", .nat 226), ("minor", .nat 1), ("path", .str "/card"), ("type", .str "c"), ("uid", .nat 0)]]) ∧
      t.value? ["linux", "resources", "devices"] = some (.arr [.obj [("access", .str "rwm"),
        ("allow", .bool true), ("major", .nat 226), ("minor", .nat 1), ("type", .str "c")]]) ∧
      t.value? ["linux", "gidMappings"] =
        some (.arr [.obj [("containerID", .nat 44), ("hostID", .nat 44), ("size", .nat 1)]]) ∧
      t.value? ["mounts"] = some (.arr [.str "proc", .obj [("destination", .str "/lib64"),
        ("options", .strings ["rbind", "nosuid", "nodev", "ro"]), ("source", .str "/lib"), ("type", .str "bind")]])) ∧
    ∃ e, g.apply h accounts ⟨[("mounts", .bool true)]⟩ = (.error e, ⟨[("mounts", .bool true)]⟩) := by
  intro h accounts g s
  constructor
  · rcases g.added_as_whole_or_not_at_all h accounts s with ⟨unfit, -⟩ | ⟨-, t, applied, -, adds⟩
    · exact absurd unfit (by decide +kernel)
    have gained := adds.gained
    simp only [additions, List.forall_mem_cons] at gained
    obtain ⟨nodes, rules, mappings, mounts, -⟩ := gained
    obtain ⟨_, ⟨⟩, nodes⟩ := nodes.appends (by decide +kernel)
    obtain ⟨_, ⟨⟩, rules⟩ := rules.appends (by decide +kernel)
    obtain ⟨_, ⟨⟩, mappings⟩ := mappings.appends (by decide +kernel)
    obtain ⟨_, ⟨⟩, mounts⟩ := mounts.appends (by decide +kernel)
    exact ⟨t, applied, nodes.trans (by decide +kernel), rules.trans (by decide +kernel),
      mappings.trans (by decide +kernel), mounts.trans (by decide +kernel)⟩
  · rcases g.added_as_whole_or_not_at_all h accounts ⟨[("mounts", .bool true)]⟩ with ⟨-, e, -, refused⟩ | ⟨fits, -⟩
    · exact ⟨e, refused⟩
    · exact absurd fits (by decide +kernel)

/-- A section that nothing is added to may be broken. -/
example :
    (Grant.mk [] [] [.bindReadOnly "/lib" "/lib"]).apply ⟨[("linux", .bool true)]⟩ =
      (.ok (), ⟨[("linux", .bool true), ("mounts", .arr [(Mount.bindReadOnly "/lib" "/lib").toJson])]⟩) := by
  decide +kernel

end Graphics

end Sandbox
