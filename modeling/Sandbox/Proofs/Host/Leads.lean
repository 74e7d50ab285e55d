import Sandbox.Proofs.Host.Agree
import Sandbox.Proofs.Host.Directories
import Sandbox.Proofs.Path.Child

/-!
Paths that lead to a directory, and the paths one name longer.

When a path leads to a directory, what the system does with a name below it depends
on the entry under that name and on nothing else: whether the name is refused is a
matter of the path alone (`refusal?`, `lastStep_child`), and so is the place that is
looked at. This gives `ensureDirectory` and `createDirectories` as formulas over that
one entry (`ensureDirectory_child`, `createDirectories_child`), and a change of owner
as a change at one location (`tryChangeOwner_eq`).
-/

namespace Sandbox

open Sandbox.Path

namespace FileTree

variable {t : FileTree} {l m : Location} {s : Name}

theorem visits_singleton (step : t.step l s = .ok (.place m)) (n : Nat) : t.visits n l [s] = looks l s := by
  cases n <;> simp [visits, visitsFrom, step]

end FileTree

/-- Why the system refuses a name below a path, whatever stands there. -/
def Path.refusal? (p : Path) (n : Name) : Option IoFailure :=
  if (p.child n).hasZeroByte then some .zeroByte
  else if maxPathLength < (p.child n).bytes.length ∨ maxNameLength < n.length then
    some (.system .nameTooLong)
  else none

namespace Host

variable {V : Location → Prop} {h h' : Host} {p : Path} {l : Location} {n : Name}

/-- The host with a directory made where nothing stands. -/
def made (h : Host) (l : Location) : Host :=
  if h.tree.get? l = none then { h with tree := h.tree.insert l .newDirectory } else h

theorem made_onlyDirectories (h : Host) (l : Location) : h.OnlyDirectories (h.made l) := by
  unfold made
  split
  · next absent => exact ⟨.insert absent rfl, ⟨rfl, rfl, rfl⟩⟩
  · exact .refl h

theorem isDirectory_made (free : (h.tree.get? l).all Entry.isDirectory = true) :
    (h.made l).tree.isDirectory l = true := by
  unfold made
  cases there : h.tree.get? l with
  | none => simp [FileTree.isDirectory, Entry.newDirectory, Entry.isDirectory]
  | some e =>
      rw [there] at free
      simpa [FileTree.isDirectory, there] using free

/-- A path leads to a directory, and all that is looked at on the way is in `V`. -/
structure LeadsBy (h : Host) (V : Location → Prop) (p : Path) (l : Location) : Prop where
  resolve : h.resolve p = .ok l
  directory : h.tree.isDirectory l = true
  visits : ∀ k ∈ h.tree.visits maxLinks (p.origin h.workingDirectory) p.steps, V k

namespace LeadsBy

theorem isDirectory (leads : h.LeadsBy V p l) : h.isDirectory p = true :=
  isDirectory_iff.mpr ⟨l, leads.resolve, leads.directory⟩

theorem mono {V' : Location → Prop} (leads : h.LeadsBy V p l) (sub : ∀ k, V k → V' k) :
    h.LeadsBy V' p l :=
  ⟨leads.resolve, leads.directory, fun k mem => sub k (leads.visits k mem)⟩

/-- A path leads to the same directory as long as nothing is lost of what was seen. -/
theorem of_keeps (leads : h.LeadsBy V p l) (dir : h'.workingDirectory = h.workingDirectory)
    (keeps : ∀ k c, V k ∨ k = l → h.tree.shapeAt k = some c → h'.tree.shapeAt k = some c) :
    h'.LeadsBy V p l := by
  obtain ⟨resolved, directory, visits⟩ := leads
  have walked := (resolve_eq_ok_iff.mp resolved).2
  have same : ∀ k ∈ h.tree.visits maxLinks (p.origin h.workingDirectory) p.steps,
      h'.tree.shapeAt k = h.tree.shapeAt k := by
    intro k mem
    obtain ⟨c, found⟩ := Option.isSome_iff_exists.mp (FileTree.shapeAt_of_walk walked k mem)
    rw [found]
    exact keeps k c (.inl (visits k mem)) found
  refine ⟨(resolve_congr dir same).trans resolved, ?_, ?_⟩
  · rw [FileTree.isDirectory_iff] at directory ⊢
    exact keeps l _ (.inr rfl) directory
  · rw [dir, FileTree.visits_congr same]
    exact visits

/-- A separator at the end of a path changes nothing. -/
theorem walk_names (leads : h.LeadsBy V p l) :
    h.tree.walk maxLinks (p.origin h.workingDirectory) p.names = .ok l ∧
      ∀ k ∈ h.tree.visits maxLinks (p.origin h.workingDirectory) p.names, V k := by
  obtain ⟨resolved, -, visits⟩ := leads
  have walked := (resolve_eq_ok_iff.mp resolved).2
  by_cases trailing : p.hasTrailingSeparator = true
  · have steps : p.steps = p.names ++ [dot] := if_pos trailing
    rw [steps] at walked visits
    obtain ⟨m, before⟩ := FileTree.walk_prefix walked
    obtain ⟨left, after⟩ := FileTree.walk_append before
    obtain ⟨goesOn, seen⟩ := after [dot]
    have same : m = l := by
      cases FileTree.Denotes.of_walk (goesOn.symm.trans walked) with
      | stay here => cases here; rfl
      | down notDot => exact absurd rfl notDot
      | link notDot => exact absurd rfl notDot
    subst same
    exact ⟨before, fun k mem => visits k (by rw [seen]; exact List.mem_append_left _ mem)⟩
  · have steps : p.steps = p.names := if_neg trailing
    rw [steps] at walked visits
    exact ⟨walked, visits⟩

/-! ### One name further -/

theorem lastStep_child (leads : h.LeadsBy V p l) (ordinary : Ordinary n) :
    h.lastStep (p.child n) =
      match p.refusal? n with
      | some e => .error e
      | none => .ok (.name l n false) := by
  have names := names_child p ordinary
  have nonempty := bytes_child_ne_nil p ordinary
  have walked := leads.walk_names.1
  rw [← origin_child p ordinary] at walked
  unfold Path.refusal?
  by_cases zero : (p.child n).hasZeroByte = true
  · simp [lastStep, zero]
  by_cases long : maxPathLength < (p.child n).bytes.length
  · simp [lastStep, FileTree.lastStep, zero, nonempty, long]
    rfl
  have accepted : (p.child n).Accepted := ⟨by simpa using zero, nonempty, Nat.not_lt.mp long⟩
  rw [lastStep_of_names accepted names, walked]
  by_cases short : maxNameLength < n.length
  · simp [leads.directory, ordinary.ne_dot, ordinary.ne_dotDot, zero, short]
  · simp [leads.directory, ordinary.ne_dot, ordinary.ne_dotDot, zero, long, short,
      hasTrailingSeparator_child p ordinary]

theorem endsWith_child (leads : h.LeadsBy V p l) (ordinary : Ordinary n) (taken : p.refusal? n = none) :
    h.EndsWith (p.child n) l n := by
  have last := leads.lastStep_child ordinary
  rw [taken] at last
  exact (lastStep_eq_name_iff.mp last).1

/-- A path that leads to a directory leads on to a directory there. -/
theorem child (leads : h.LeadsBy V p l) (ordinary : Ordinary n) (taken : p.refusal? n = none)
    (directory : h.tree.isDirectory (l ++ [n]) = true) (here : V l) (there : V (l ++ [n])) :
    h.LeadsBy V (p.child n) (l ++ [n]) := by
  have ends := leads.endsWith_child ordinary taken
  have found := FileTree.isDirectory_iff.mp directory
  refine ⟨ends.resolve found (by simp) fun _ => rfl, directory, ?_⟩
  intro k mem
  obtain ⟨walked, visits⟩ := leads.walk_names
  obtain ⟨left, after⟩ := FileTree.walk_append walked
  have step : h.tree.step l n = .ok (.place (l ++ [n])) :=
    FileTree.step_eq_ok_iff.mpr ⟨FileTree.isDirectory_iff.mp leads.directory,
      .down ordinary.ne_dot ordinary.ne_dotDot ends.short found (by simp)⟩
  rw [steps_child p ordinary, origin_child p ordinary, (after [n]).2,
    FileTree.visits_singleton step] at mem
  rcases List.mem_append.mp mem with before | last
  · exact visits k before
  · rcases FileTree.mem_looks last with rfl | ⟨-, -, rfl⟩
    · exact here
    · exact there

/-- A directory is made below a directory unless the name is refused or taken by
something else. -/
theorem ensureDirectory_child (leads : h.LeadsBy V p l) (ordinary : Ordinary n)
    (noLink : ∀ target, h.tree.shapeAt (l ++ [n]) ≠ some (.link target)) :
    h.ensureDirectory (p.child n) =
      match p.refusal? n with
      | some e => .error e
      | none =>
        if (h.tree.get? (l ++ [n])).all Entry.isDirectory then .ok (h.made (l ++ [n]))
        else .error (.system .alreadyExists) := by
  have last := leads.lastStep_child ordinary
  unfold ensureDirectory makeDirectory
  rw [last]
  cases refused : p.refusal? n with
  | some e =>
      have other : e ≠ .system .alreadyExists := by
        unfold Path.refusal? at refused
        split at refused
        · cases refused; decide
        · split at refused
          · cases refused; decide
          · cases refused
      simp [other]
  | none =>
      cases there : h.tree.get? (l ++ [n]) with
      | none => simp [there, made]
      | some e =>
          have found : h.tree.shapeAt (l ++ [n]) = some e.content.shape := by
            rw [FileTree.shapeAt, there, Option.map_some]
          -- What stands there is no link, so the path leads to it.
          have resolved := (leads.endsWith_child ordinary refused).resolve found
            (fun target same => noLink target (same ▸ found))
            (by simp [hasTrailingSeparator_child p ordinary])
          have is : h.isDirectory (p.child n) = e.isDirectory := by
            rw [Host.isDirectory, resolved, ← FileTree.isDirectory_of_get? there]
          simp [there, is, made]

end LeadsBy

/-! ### Handing over -/

/-- The host after an owner is changed at a location, if that can be done. -/
def handOverAt (h : Host) (l : Location) (uid gid : UInt32) : Host :=
  match h.tree.get? l with
  | some e =>
    if h.privileges.changeOwner then
      { h with tree := h.tree.setOwner l (handOver e.owner uid gid) }
    else h
  | none => h

theorem tryChangeOwner_eq (resolved : h.resolve p = .ok l) (uid gid : UInt32) :
    h.tryChangeOwner p uid gid = h.handOverAt (h.ownerLocation l) uid gid := by
  simp only [tryChangeOwner, changeOwner, resolved, handOverAt]
  cases h.tree.get? (h.ownerLocation l) with
  | none => rfl
  | some e => by_cases may : h.privileges.changeOwner = true <;> simp [may, Except.toOption]

@[simp] theorem shapeAt_handOverAt (h : Host) (l k : Location) (uid gid : UInt32) :
    (h.handOverAt l uid gid).tree.shapeAt k = h.tree.shapeAt k := by
  unfold handOverAt
  split
  · split
    · exact FileTree.shapeAt_setOwner _ _ _ _
    · rfl
  · rfl

theorem get?_handOverAt {e : Entry} (found : h.tree.get? l = some e)
    (allowed : h.privileges.changeOwner = true) (uid gid : UInt32) (k : Location) :
    (h.handOverAt l uid gid).tree.get? k =
      if k = l then some { e with owner := handOver e.owner uid gid } else h.tree.get? k := by
  rw [handOverAt, found]
  simp only [if_pos allowed, FileTree.get?_setOwner, found, Option.map_some]

/-- Two ids that stand for somebody make up the new owner. -/
theorem handOver_eq {uid gid : UInt32} (user : uid ≠ unchangedId) (group : gid ≠ unchangedId) (owner : Owner) :
    handOver owner uid gid = ⟨uid, gid⟩ := by
  rw [handOver, if_neg user, if_neg group]

theorem handOverAt_agreeOn (h : Host) (l : Location) (uid gid : UInt32) :
    AgreeOn (· ≠ l) h (h.handOverAt l uid gid) := by
  unfold handOverAt
  split
  · split
    · refine ⟨?_, ⟨rfl, rfl, rfl⟩⟩
      intro k ne
      rw [FileTree.get?_setOwner, if_neg ne]
    · exact .refl _ h
  · exact .refl _ h

theorem insert_agreeOn (h : Host) (l : Location) (e : Entry) :
    AgreeOn (· ≠ l) h { h with tree := h.tree.insert l e } :=
  ⟨fun _ ne => FileTree.get?_insert_of_ne h.tree e ne, ⟨rfl, rfl, rfl⟩⟩

theorem made_agreeOn (h : Host) (l : Location) : AgreeOn (· ≠ l) h (h.made l) := by
  unfold made
  split
  · exact insert_agreeOn h l .newDirectory
  · exact .refl _ h

namespace AgreeOn

variable {S : Location → Prop}

/-- The same entry put at the same place keeps hosts alike. -/
theorem insert (agree : AgreeOn S h h') (l : Location) (e : Entry) :
    AgreeOn S { h with tree := h.tree.insert l e } { h' with tree := h'.tree.insert l e } := by
  obtain ⟨same, dir, mounts, privileges⟩ := agree
  refine ⟨?_, ⟨dir, mounts, privileges⟩⟩
  intro k hk
  rw [FileTree.get?_insert, FileTree.get?_insert, same k hk]

theorem handOverAt (agree : AgreeOn S h h') (hl : S l) (uid gid : UInt32) :
    AgreeOn S (h.handOverAt l uid gid) (h'.handOverAt l uid gid) := by
  unfold Host.handOverAt
  rw [agree.get? l hl, agree.setting.privileges]
  cases h.tree.get? l with
  | none => exact agree
  | some e =>
      dsimp only
      by_cases may : h.privileges.changeOwner = true
      · rw [if_pos may, if_pos may]
        refine ⟨?_, ⟨agree.setting.workingDirectory, agree.setting.mounts, rfl⟩⟩
        intro k hk
        rw [FileTree.get?_setOwner, FileTree.get?_setOwner, agree.get? k hk, agree.get? l hl]
      · rw [if_neg may, if_neg may]
        exact agree

theorem made (agree : AgreeOn S h h') (hl : S l) : AgreeOn S (h.made l) (h'.made l) := by
  unfold Host.made
  rw [agree.get? l hl]
  split
  · exact agree.insert l .newDirectory
  · exact agree

end AgreeOn

/-- Whatever is mounted on a directory is written inside it. -/
def LayersWithin (h : Host) (l : Location) : Prop :=
  ∀ m ∈ h.mounts, m.point = l → l <+: m.upper

theorem LayersWithin.of_sameSetting (within : h.LayersWithin l) (setting : h.SameSetting h') :
    h'.LayersWithin l := by
  rw [LayersWithin, setting.mounts]
  exact within

theorem prefix_ownerLocation (within : h.LayersWithin l) : l <+: h.ownerLocation l := by
  unfold ownerLocation
  split
  · next m found =>
      split
      · exact within m (List.mem_of_find?_eq_some found) (by simpa using List.find?_some found)
      · exact List.prefix_refl l
  · exact List.prefix_refl l

theorem ownerLocation_congr (within : h.LayersWithin l) (agree : AgreeOn (l <+: ·) h h') :
    h'.ownerLocation l = h.ownerLocation l := by
  unfold ownerLocation
  rw [agree.setting.mounts]
  split
  · next m found =>
      have below := within m (List.mem_of_find?_eq_some found) (by simpa using List.find?_some found)
      rw [agree.isDirectory (List.prefix_refl l), agree.isDirectory below]
  · rfl

/-- Only a directory shows the owner of what is mounted on it. -/
theorem ownerLocation_of_not_isDirectory (file : h.tree.isDirectory l = false) : h.ownerLocation l = l := by
  unfold ownerLocation
  split
  · rw [file]; rfl
  · rfl

/-! ### A directory with its owner -/

/-- The host with a directory made where nothing stands and handed to an owner. -/
def madeFor (h : Host) (l : Location) (owner : Option Owner) : Host :=
  owner.elim (h.made l) fun o => (h.made l).handOverAt ((h.made l).ownerLocation l) o.uid o.gid

variable {owner : Option Owner}

theorem shapeAt_madeFor (h : Host) (l k : Location) (owner : Option Owner) :
    (h.madeFor l owner).tree.shapeAt k = (h.made l).tree.shapeAt k := by
  cases owner with
  | none => rfl
  | some o => exact shapeAt_handOverAt _ _ _ _ _

theorem madeFor_keeps (h : Host) (l : Location) (owner : Option Owner) :
    h.tree.Keeps (h.madeFor l owner).tree := by
  intro k c found
  rw [shapeAt_madeFor]
  exact (made_onlyDirectories h l).tree.keeps k c found

theorem isDirectory_madeFor (free : (h.tree.get? l).all Entry.isDirectory = true) (owner : Option Owner) :
    (h.madeFor l owner).tree.isDirectory l = true := by
  rw [FileTree.isDirectory_iff, shapeAt_madeFor]
  exact FileTree.isDirectory_iff.mp (isDirectory_made free)

/-- All of it happens at and below the directory. -/
theorem madeFor_agreeOn (within : h.LayersWithin l) (owner : Option Owner) :
    AgreeOn (¬ l <+: ·) h (h.madeFor l owner) := by
  have before : AgreeOn (¬ l <+: ·) h (h.made l) :=
    (made_agreeOn h l).mono fun k apart same => apart (same ▸ List.prefix_refl l)
  cases owner with
  | none => exact before
  | some o =>
      have within' := within.of_sameSetting before.setting
      refine before.trans ((handOverAt_agreeOn _ _ _ _).mono fun k apart same => apart ?_)
      exact same ▸ prefix_ownerLocation within'

/-- Hosts alike there are alike there afterwards. -/
theorem AgreeOn.madeFor (agree : AgreeOn (l <+: ·) h h') (within : h.LayersWithin l)
    (owner : Option Owner) : AgreeOn (l <+: ·) (h.madeFor l owner) (h'.madeFor l owner) := by
  have before := agree.made (List.prefix_refl l)
  cases owner with
  | none => exact before
  | some o =>
      have within' := within.of_sameSetting (made_agreeOn h l).setting
      change AgreeOn _ (Host.handOverAt _ _ _ _) (Host.handOverAt _ _ _ _)
      rw [ownerLocation_congr within' before]
      exact before.handOverAt (prefix_ownerLocation within') o.uid o.gid

end Host

open Host

variable {V : Location → Prop} {h : Host} {p : Path} {l : Location} {n : Name}

theorem segmentsBelow_child (p : Path) (ordinary : Ordinary n) :
    segmentsBelow p (p.child n) = .ok [n] := by
  have below : (p.child n).below? p = some [.normal n] :=
    stripPrefix?_eq_some_iff.mpr (components_child p ordinary)
  rw [segmentsBelow, below]
  rfl

/-- A directory just below a base that is there is made and handed over. -/
theorem createDirectories_child (leads : h.LeadsBy V p l) (ordinary : Ordinary n)
    (noLink : ∀ target, h.tree.shapeAt (l ++ [n]) ≠ some (.link target)) (uid gid : UInt32) :
    createDirectories h p (p.child n) uid gid =
      match p.refusal? n with
      | some e => (.error (.io (p.child n) e), h)
      | none =>
        if (h.tree.get? (l ++ [n])).all Entry.isDirectory then
          (.ok (), h.madeFor (l ++ [n]) (newOwner uid gid))
        else (.error (.io (p.child n) (.system .alreadyExists)), h) := by
  rw [createDirectories, segmentsBelow_child p ordinary]
  simp only [makeDirectories_of_isDirectory leads.isDirectory, ensureChain, ensureOwnedDirectory,
    leads.ensureDirectory_child ordinary noLink]
  cases refused : p.refusal? n with
  | some e => rfl
  | none =>
      by_cases free : (h.tree.get? (l ++ [n])).all Entry.isDirectory = true
      · have kept : LeadsBy (h.made (l ++ [n])) (fun _ => True) p l :=
          (leads.mono fun _ _ => trivial).of_keeps (made_onlyDirectories h _).setting.workingDirectory
            fun k c _ => (made_onlyDirectories h _).tree.keeps k c
        have reached := kept.child ordinary refused (isDirectory_made free) trivial trivial
        simp only [if_pos free]
        cases newOwner uid gid with
        | none => rfl
        | some o => simp only [tryChangeOwner_eq reached.resolve, madeFor, Option.elim_some]
      · simp only [if_neg free]

end Sandbox
