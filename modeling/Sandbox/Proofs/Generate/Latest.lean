import Sandbox.Proofs.Generate.Spare

/-!
The specification on disk is that of the last success.

A history is any number of calls on instances, each succeeding or not, with files outside
the overlay root rewritten in between, and with the system showing other things below what
is mounted (`Call.History`). Its log holds for whom a specification was written, and which,
the newest first. For every instance the newest entry of the log is what stands on disk,
whole and handed over; where there is none, nothing has changed (`Call.last_spec_stands`).
This holds of every lawful kernel.

The law fails where what mounts may change is not clear of instances
(`Call.spec_place_touched`, `Call.spec_place_covered`).
-/

namespace Sandbox

open Host

variable {k : Kernel} {c : Config} {h h' h'' : Host} {id : InstanceId} {l : Location}

/-! ### Histories -/

/-- Files outside a root are rewritten: links stay as they are, no directory goes, and
nothing changes at and below the root. -/
structure Host.Rewritten (root : Path) (h h' : Host) : Prop where
  setting : h.SameSetting h'
  links : h.tree.SameLinks h'.tree
  directories : ∀ k, h.tree.isDirectory k = true → h'.tree.isDirectory k = true
  below : ∀ r k, h.Denotes root r → r <+: k → h'.tree.get? k = h.tree.get? k

/-- A file outside the root can be rewritten. -/
theorem Host.Rewritten.insert {root : Path} {e : Entry} (file : h.tree.shapeAt l = some .other)
    (still : e.content.shape = .other) (outside : ∀ r, h.Denotes root r → ¬ r <+: l) :
    Rewritten root h { h with tree := h.tree.insert l e } := by
  have same (k : Location) : (h.tree.insert l e).shapeAt k = h.tree.shapeAt k := by
    by_cases here : k = l
    · rw [here, FileTree.shapeAt_insert_self, still, file]
    · exact FileTree.shapeAt_insert_of_ne h.tree e here
  refine ⟨⟨rfl, rfl, rfl⟩, fun k target => by rw [same k], fun k directory => ?_, fun r k denotes within => ?_⟩
  · exact (FileTree.isDirectory_eq_of_shapeAt (same k)).trans directory
  · exact FileTree.get?_insert_of_ne h.tree e fun here => outside r denotes (here ▸ within)

namespace Call

/-- For whom a call writes a specification, and which, if it succeeds. -/
def written? (k : Kernel) (c : Config) (h : Host) : Call → Option (Application × Spec)
  | prepare accounts a manifest =>
    (Generator.prepare ⟨c, accounts⟩ h a manifest k).1.toOption.map fun p => (a, p.spec)
  | generate accounts a packages =>
    (Generator.generate ⟨c, accounts⟩ h a packages).1.toOption.map fun w => (a, w.spec)
  | teardown _ _ => none

theorem eq_of_written?_prepare {accounts : Accounts} {a b : Application} {manifest : Path} {s : Spec}
    (written : (prepare accounts a manifest).written? k c h = some (b, s)) : b = a := by
  obtain ⟨p, -, same⟩ := Option.map_eq_some_iff.mp written
  cases same
  rfl

/-- If a call mounts a root, the options of the mount are read as they were put together. -/
def Legible (c : Config) (h : Host) : Call → Prop
  | prepare _ a manifest => ∀ packages, Package.loadManifest h manifest = .ok packages → packages ≠ [] →
      (Layout.ofInstance c.overlayRoot a.instanceId (packages.map Package.mountPath)).Legible
  | _ => True

/-- From a host on, what was written in any number of calls and which host is there after
them. -/
inductive History (k : Kernel) (c : Config) (h : Host) : List (Application × Spec) → Host → Prop
  | start : History k c h [] h
  | call {log : List (Application × Spec)} {h' : Host} (call : Call) : History k c h log h' → call.Legible c h' →
      History k c h ((call.written? k c h').toList ++ log) (call.run k c h').2
  | rewritten {log : List (Application × Spec)} {h' h'' : Host} : History k c h log h' →
      h'.Rewritten c.overlayRoot h'' → History k c h log h''
  | reshown {log : List (Application × Spec)} {h' h'' : Host} : History k c h log h' →
      h'.Reshown h'' → History k c h log h''

/-- What was written last for an instance. -/
def latest? (id : InstanceId) (log : List (Application × Spec)) : Option (Application × Spec) :=
  log.find? fun w => w.1.instanceId = id

theorem latest?_cons (w : Application × Spec) (log : List (Application × Spec)) :
    latest? id (w :: log) = if w.1.instanceId = id then some w else latest? id log := by
  rw [latest?, List.find?_cons]
  by_cases this : w.1.instanceId = id
  · rw [if_pos this, decide_eq_true this]
  · rw [if_neg this, decide_eq_false this, latest?]

theorem latest?_cons_eq_none {w : Application × Spec} {log : List (Application × Spec)} :
    latest? id (w :: log) = none ↔ w.1.instanceId ≠ id ∧ latest? id log = none := by
  rw [latest?_cons]
  split
  · next this => exact ⟨nofun, fun other => absurd this other.1⟩
  · next other => exact ⟨fun none => ⟨other, none⟩, fun both => both.2⟩

/-! ### One step -/

/-- A call spares all specifications but the one that it writes, and that one stands. -/
theorem run_spares (lawful : k.Lawful) (ready : Ready c h) {call : Call} (legible : call.Legible c h) :
    Spares c (fun id => ∀ w, call.written? k c h = some w → id ≠ w.1.instanceId) h (call.run k c h).2 ∧
      ∀ w, call.written? k c h = some w → HoldsSpec c (call.run k c h).2 w.1 w.2 := by
  cases call with
  | prepare accounts a manifest =>
      obtain ⟨spares, holds⟩ :=
        Generator.prepare_spares (g := ⟨c, accounts⟩) lawful ready legible (Prod.eta _).symm
      rw [Call.run, written?]
      cases result : (Generator.prepare ⟨c, accounts⟩ h a manifest k).1 with
      | error e =>
          rw [result] at spares
          refine ⟨spares.mono fun id _ => ?_, ?_⟩
          · rintro ⟨⟩
          · rintro w ⟨⟩
      | ok p =>
          rw [result] at spares
          refine ⟨spares.mono fun id differs _ => differs _ rfl, ?_⟩
          rintro w ⟨⟩
          exact holds p result
  | generate accounts a packages =>
      obtain ⟨spares, holds⟩ := Generator.generate_spares (g := ⟨c, accounts⟩) ready (Prod.eta _).symm
      rw [Call.run, written?]
      cases result : (Generator.generate ⟨c, accounts⟩ h a packages).1 with
      | error e =>
          rw [result] at spares
          refine ⟨spares.mono fun id _ => ?_, ?_⟩
          · rintro ⟨⟩
          · rintro w ⟨⟩
      | ok w =>
          rw [result] at spares
          refine ⟨spares.mono fun id differs _ => differs _ rfl, ?_⟩
          rintro w' ⟨⟩
          exact holds w result
  | teardown accounts id =>
      constructor
      · rw [Call.run]
        cases down : Generator.teardown ⟨c, accounts⟩ h id k with
        | error e => exact .refl h
        | ok h₁ =>
            obtain ⟨m, unmounts⟩ := lawful.unmounts (Generator.teardown_eq_ok_iff.mp down)
            exact unmounts.spares ready
      · rintro w ⟨⟩

end Call

/-- Rewriting files outside the overlay root spares all specifications. -/
theorem Host.Rewritten.spares {P : InstanceId → Prop} (rewritten : h.Rewritten c.overlayRoot h')
    (ready : Ready c h) : Spares c P h h' where
  ways := ⟨rewritten.setting.workingDirectory, rewritten.setting.privileges, fun q _ => rewritten.links q,
    fun q _ => rewritten.directories q⟩
  mounts m mem := .inl (rewritten.setting.mounts ▸ mem)
  specs id _ l q denotes within _ := by
    obtain ⟨r, root, rfl⟩ := (denotes_child_iff ready.plain List.mem_cons_self).mp denotes
    exact rewritten.below r q root ((List.prefix_append r _).trans within)

namespace Call

/-! ### Any number of steps -/

/-- A step that spares all specifications changes nothing about those that stand. -/
theorem stands_of_spares {log : List (Application × Spec)}
    (before : Spares c (fun id => latest? id log = none) h h' ∧
      ∀ id a s, latest? id log = some (a, s) → a.instanceId = id ∧ HoldsSpec c h' a s)
    (step : ∀ {P}, Spares c P h' h'') :
    Spares c (fun id => latest? id log = none) h h'' ∧
      ∀ id a s, latest? id log = some (a, s) → a.instanceId = id ∧ HoldsSpec c h'' a s := by
  obtain ⟨spares, stands⟩ := before
  refine ⟨spares.trans step, ?_⟩
  intro id a s latest
  obtain ⟨same, there⟩ := stands id a s latest
  exact ⟨same, there.of_spares (P := fun _ => True) step trivial⟩

/-- Over a history, the specifications that were not written are spared, and of the others
the last one that was written stands. -/
theorem History.spares (lawful : k.Lawful) (ready : Ready c h) {log : List (Application × Spec)}
    (history : History k c h log h') :
    Spares c (fun id => latest? id log = none) h h' ∧
      ∀ id a s, latest? id log = some (a, s) → a.instanceId = id ∧ HoldsSpec c h' a s := by
  induction history with
  | start => exact ⟨.refl h, nofun⟩
  | @call log h' call _ legible ih =>
      obtain ⟨before, stands⟩ := ih
      obtain ⟨step, holds⟩ := run_spares lawful (before.ready ready) legible
      generalize call.written? k c h' = written at step holds ⊢
      generalize (call.run k c h').2 = h'' at step holds ⊢
      cases written with
      | none => exact stands_of_spares ⟨before, stands⟩ (step.mono fun _ _ => nofun)
      | some w =>
          have others : Spares c (· ≠ w.1.instanceId) h' h'' := step.mono fun id differs w' same =>
            Option.some.inj same ▸ differs
          rw [Option.toList_some, List.singleton_append]
          constructor
          · refine (before.mono fun id none => ?_).trans (others.mono fun id none => ?_)
            · exact (latest?_cons_eq_none.mp none).2
            · exact Ne.symm (latest?_cons_eq_none.mp none).1
          · intro id a s latest
            rw [latest?_cons] at latest
            split at latest
            case isTrue this =>
              cases latest
              exact ⟨this, holds (a, s) rfl⟩
            case isFalse other =>
              obtain ⟨same, there⟩ := stands id a s latest
              exact ⟨same, there.of_spares others (same ▸ Ne.symm other)⟩
  | rewritten _ rewriting ih => exact stands_of_spares ih (rewriting.spares (ih.1.ready ready))
  | reshown _ showing ih => exact stands_of_spares ih (showing.spares (ih.1.ready ready))

/-- Whatever calls there are, failed ones among them, whatever is rewritten outside the
overlay root in between, and whatever the system shows below what is mounted: the file in
the place of an instance's specification is the one that was written last, and belongs to
whom it was written for. Where none was written all that stood there stands there still, and
nothing has come there unless the path of the overlay root itself leads through that place.
The root's path must not lead through the directories that roots are mounted with, and what
is mounted at the start has to be clear of instances. -/
theorem last_spec_stands (k : Kernel) (lawful : k.Lawful) (c : Config) (h : Host)
    (plain : h.NoLinkUnder c.overlayRoot) (allowed : h.privileges.changeOwner = true) (apart : c.Apart h)
    (clear : ∀ m ∈ h.mounts, c.Clear h m) {log : List (Application × Spec)} {h' : Host}
    (history : History k c h log h') (ids : ∀ w ∈ log, w.1.uid ≠ unchangedId ∧ w.1.gid ≠ unchangedId)
    (id : InstanceId) :
    match latest? id log with
    | some (a, s) => h'.entryAt (c.specPath id) =
        .ok ⟨.file (Utf8.encode s.toJson.pretty.toList), ⟨a.uid, a.gid⟩, 0o644⟩
    | none => ∀ l q, h.Denotes (c.specPath id) l → l <+: q →
        (h.OnWay c.overlayRoot q → (h.tree.get? q).isSome = true) → h'.tree.get? q = h.tree.get? q := by
  obtain ⟨spares, stands⟩ := history.spares lawful ⟨plain.noOwnLink, allowed, apart, clear⟩
  cases latest : latest? id log with
  | none => exact spares.specs id latest
  | some w =>
      obtain ⟨a, s⟩ := w
      obtain ⟨rfl, holds⟩ := stands id a s latest
      obtain ⟨uid, gid⟩ := ids (a, s) (List.mem_of_find?_eq_some latest)
      have owner : handOver .root a.uid a.gid = ⟨a.uid, a.gid⟩ := by
        rw [handOver, if_neg uid, if_neg gid]
      dsimp only
      rw [holds.entryAt, owner]
      rfl

/-- While the template is unreadable, an instance cannot be generated. Once it is mended
another one can be prepared. -/
theorem last_spec_stands_sample :
    let start := Sample.host []
    let first := Sample.application Sample.first
    ∃ log h', History .overlay Sample.config start log h' ∧
      (∃ s, latest? Sample.first log = some (first, s) ∧ h'.entryAt (Sample.config.specPath Sample.first) =
        .ok ⟨.file (Utf8.encode s.toJson.pretty.toList), ⟨first.uid, first.gid⟩, 0o644⟩) ∧
      latest? Sample.second log = none ∧ h'.tree.get? (Sample.specLocation Sample.second) = none := by
  intro start first
  let c := Sample.config
  let template : Location := [Sample.name "template.json"]
  let write (h : Host) (text : String) : Host := { h with tree := h.tree.insert template (Sample.file text) }
  let fails : Call := .generate ⟨[], []⟩ (Sample.application Sample.second) []
  let succeeds : Call := .prepare ⟨[], []⟩ first Sample.manifest
  let h₁ := write start "no template"
  let h₂ := (fails.run .overlay c h₁).2
  let h₃ := write h₂ "\x7b\x7d"
  have names : c.overlayRoot.names = [Sample.name "instances"] := by decide +kernel
  have noLink := FileTree.shapeAt_ne_link (t := start.tree) (by decide +kernel)
  have plain : start.NoLinkUnder c.overlayRoot := fun l _ q target _ _ => noLink q target
  have apart : c.Apart start := by
    refine .of_no_link noLink ?_
    rw [names]
    exact List.forall_mem_singleton.mpr (ordinary_of_isSegment (s := "instances") (by decide))
  have ready : Ready c start := ⟨plain.noOwnLink, rfl, apart, fun m mem => nomatch mem⟩
  have rewritten {h : Host} (ways : start.KeepsWays c h) (file : h.tree.shapeAt template = some .other)
      (text : String) : h.Rewritten c.overlayRoot (write h text) := by
    refine .insert file rfl fun r denotes => ?_
    have place : h.Denotes c.overlayRoot [Sample.name "instances"] :=
      (ways.denotes_root_iff Sample.first).mpr (denotes_of_resolve (by decide +kernel))
    rw [denotes.unique place]
    decide +kernel
  have spoiled := rewritten (.refl start) (by decide +kernel) "no template"
  have spares₁ : Spares c (fun _ => True) start h₁ := spoiled.spares ready
  have spares₂ := (run_spares Kernel.overlay_lawful (spares₁.ready ready) (show fails.Legible c h₁ from trivial)).1
  have mended := rewritten (spares₁.ways.trans spares₂.ways) (by decide +kernel) "\x7b\x7d"
  have failed : fails.written? .overlay c h₁ = none := Option.isNone_iff_eq_none.mp (by decide +kernel)
  have legible : succeeds.Legible c h₃ := by
    intro packages loaded _
    have there : Package.loadManifest h₃ Sample.manifest = .ok [Sample.package] := by decide +kernel
    cases there.symm.trans loaded
    exact Sample.legible (by decide)
  obtain ⟨w, written⟩ : ∃ w, succeeds.written? .overlay c h₃ = some w :=
    Option.isSome_iff_exists.mp (by decide +kernel)
  obtain ⟨a, s⟩ := w
  obtain rfl := eq_of_written?_prepare written
  have history := History.call succeeds (.rewritten (.call fails (.rewritten .start spoiled) trivial) mended) legible
  rw [written, failed, Option.toList_some, Option.toList_none, List.append_nil, List.append_nil] at history
  have ids : ∀ w ∈ [(first, s)], w.1.uid ≠ unchangedId ∧ w.1.gid ≠ unchangedId := by
    intro w mem
    cases List.mem_singleton.mp mem
    exact ⟨show first.uid ≠ unchangedId by decide, show first.gid ≠ unchangedId by decide⟩
  have stands := last_spec_stands .overlay Kernel.overlay_lawful c start plain rfl apart
    (fun m mem => nomatch mem) history ids
  have newest : latest? Sample.first [(first, s)] = some (first, s) := (latest?_cons _ _).trans (if_pos rfl)
  have never : latest? Sample.second [(first, s)] = none :=
    latest?_cons_eq_none.mpr ⟨show Sample.first ≠ Sample.second by decide, rfl⟩
  have here := stands Sample.first
  have there := stands Sample.second
  rw [newest] at here
  rw [never] at there
  refine ⟨_, _, history, ⟨s, newest, here⟩, never, ?_⟩
  have root : start.Denotes c.overlayRoot [Sample.name "instances"] := denotes_of_resolve (by decide +kernel)
  refine there _ _ ((denotes_child_iff plain.noOwnLink List.mem_cons_self).mpr ⟨_, root, rfl⟩)
    (List.prefix_refl _) ?_
  -- The overlay root is written with one name, so the way to it does not go further.
  intro onWay
  rcases onWay.of_names_singleton names with beginning | denotes
  · cases beginning
  · exact absurd (root.unique denotes) (by decide +kernel)

/-- Two hosts on which a call that fails changes the place of a specification. On the
first the overlay root is written so that the way to it leads through that place, and a
directory is made there; on the second an overlay is written there, and what stands there
is handed over. -/
theorem spec_place_touched :
    let call : Call := .generate ⟨[], []⟩ (Sample.application Sample.first) []
    let c := { Sample.config with overlayRoot := .ofString "/instances/first/config.json/../.." }
    let bare := Sample.host []
    let directories := [[Sample.name "instances", Sample.name "first"], Sample.specLocation Sample.first,
      [Sample.name "instances", Sample.name "second"], Sample.specLocation Sample.second]
    let layered := { Sample.host (directories.map fun l => (l, Entry.newDirectory)) with
      mounts := [{ point := [Sample.name "instances", Sample.name "first"],
                   upper := Sample.specLocation Sample.second }] }
    (bare.NoLinkUnder c.overlayRoot ∧ History .overlay c bare [] (call.run .overlay c bare).2 ∧
      bare.Denotes (c.specPath Sample.first) (Sample.specLocation Sample.first) ∧
      bare.tree.get? (Sample.specLocation Sample.first) = none ∧
      (call.run .overlay c bare).2.tree.get? (Sample.specLocation Sample.first) = some .newDirectory) ∧
    layered.NoLinkUnder Sample.config.overlayRoot ∧
      History .overlay Sample.config layered [] (call.run .overlay Sample.config layered).2 ∧
      layered.Denotes (Sample.config.specPath Sample.second) (Sample.specLocation Sample.second) ∧
      layered.tree.get? (Sample.specLocation Sample.second) = some .newDirectory ∧
      (call.run .overlay Sample.config layered).2.tree.get? (Sample.specLocation Sample.second) =
        some { Entry.newDirectory with owner := ⟨1000, 1000⟩ } := by
  intro call c bare directories layered
  have fails {c : Config} {h : Host} (failed : call.written? .overlay c h = none) :
      History .overlay c h [] (call.run .overlay c h).2 := by
    have history := History.call call (.start (k := .overlay) (c := c) (h := h)) trivial
    rw [failed] at history
    exact history
  constructor
  · have noLink := FileTree.shapeAt_ne_link (t := bare.tree) (by decide +kernel)
    have plain : bare.NoLinkUnder c.overlayRoot := fun l _ q target _ _ => noLink q target
    have names : c.overlayRoot.names =
        [Sample.name "instances", Sample.name "first", Sample.name "config.json", Path.dotDot, Path.dotDot] := by
      decide +kernel
    have root : bare.Denotes c.overlayRoot [Sample.name "instances"] := by
      rw [Denotes, names]
      exact .down (by decide) (by decide) (noLink _) (.down (by decide) (by decide) (noLink _)
        (.down (by decide) (by decide) (noLink _) (.up (.up (.here _)))))
    exact ⟨plain, fails (Option.isNone_iff_eq_none.mp (by decide +kernel)),
      (denotes_child_iff plain.noOwnLink List.mem_cons_self).mpr ⟨_, root, rfl⟩, by decide +kernel,
      by decide +kernel⟩
  · have noLink := FileTree.shapeAt_ne_link (t := layered.tree) (by decide +kernel)
    have plain : layered.NoLinkUnder Sample.config.overlayRoot := fun l _ q target _ _ => noLink q target
    have root : layered.Denotes Sample.config.overlayRoot [Sample.name "instances"] :=
      denotes_of_resolve (by decide +kernel)
    exact ⟨plain, fails (Option.isNone_iff_eq_none.mp (by decide +kernel)),
      (denotes_child_iff plain.noOwnLink List.mem_cons_self).mpr ⟨_, root, rfl⟩, by decide +kernel,
      by decide +kernel⟩

/-- Two hosts on which a mount is in the way of a specification that it was not written
for. On the first the overlay root's path leads through a root that is mounted, which then
hides it and cannot be unmounted. On the second an overlay that is written in the directory
of one instance shows its specification in that of another. -/
theorem spec_place_covered :
    let c := { Sample.config with
      overlayRoot := .ofString "/instances/first/rootfs/sub/../../..", baseTemplate := .ofString "/none" }
    let dir (id : InstanceId) : Location := [Sample.name "instances", Sample.name id.text]
    let crossed := Sample.host [(dir Sample.first, .newDirectory), (dir Sample.first ++ [Sample.name "rootfs"], .newDirectory),
      (dir Sample.first ++ [Sample.name "rootfs", Sample.name "sub"], .newDirectory),
      (dir Sample.second, .newDirectory), (Sample.specLocation Sample.second, Sample.file "text")]
    let prepares : Call := .prepare ⟨[], []⟩ (Sample.application Sample.first) Sample.manifest
    let layered := { Sample.host [(dir Sample.first, .newDirectory), (dir Sample.second, .newDirectory)] with
      mounts := [{ point := dir Sample.first, upper := dir Sample.second }] }
    let generates : Call := .generate ⟨[], []⟩ (Sample.application Sample.second) []
    (crossed.tree.entries.all (fun e => e.2.content.shape ∈ [.directory, .other]) ∧
      prepares.written? .overlay c crossed = none ∧
      crossed.entryAt (c.specPath Sample.second) = .ok (Sample.file "text") ∧
      (prepares.run .overlay c crossed).2.entryAt (c.specPath Sample.second) = .error (.system .noEntry)) ∧
    ∃ h', (generates.run .overlay Sample.config layered).2.Reshown h' ∧
      layered.tree.get? (Sample.specLocation Sample.first) = none ∧
      (h'.tree.get? (Sample.specLocation Sample.first)).isSome := by
  intro c dir crossed prepares layered generates
  constructor
  · exact ⟨by decide +kernel, Option.isNone_iff_eq_none.mp (by decide +kernel), by decide +kernel, by decide +kernel⟩
  · have mounted : { point := dir Sample.first, upper := dir Sample.second } ∈
        (generates.run .overlay Sample.config layered).2.mounts := by decide +kernel
    refine ⟨_, .insert mounted (l := Sample.specLocation Sample.first) (by decide +kernel) (Sample.file "shown"),
      by decide +kernel, ?_⟩
    rw [FileTree.get?_insert_self]
    rfl

end Call

end Sandbox
