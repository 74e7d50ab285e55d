import Sandbox.Directories
import Sandbox.Proofs.Host.Change

/-!
Making directories and handing them over changes nothing but directories.

This holds of every operation here, failed or not, and whatever stands in the tree
(`Host.OnlyDirectories`). A run that fails keeps what it has made, so it is the
host after the run that is compared with the host before it. Where making a
directory succeeds, the path leads to a directory (`isDirectory_of_ensureDirectory`),
and where one is there already nothing happens (`ensureDirectory_of_isDirectory`).
-/

namespace Sandbox

namespace Host

variable {h h' h'' : Host} {p : Path} {l dir : Location} {n : Name}

/-- The hosts differ in directories alone. -/
structure OnlyDirectories (h h' : Host) : Prop where
  tree : h.tree.OnlyDirectories h'.tree
  setting : h.SameSetting h'

namespace OnlyDirectories

theorem refl (h : Host) : OnlyDirectories h h :=
  ⟨.refl _, .refl h⟩

theorem trans (d : OnlyDirectories h h') (d' : OnlyDirectories h' h'') : OnlyDirectories h h'' :=
  ⟨d.tree.trans d'.tree, d.setting.trans d'.setting⟩

theorem isDirectory (d : OnlyDirectories h h') (is : h.isDirectory p = true) :
    h'.isDirectory p = true :=
  isDirectory_of_keeps d.tree.keeps d.setting.workingDirectory is

end OnlyDirectories

/-! ### Making directories -/

/-- A directory is made under a name that nothing has. -/
theorem makeDirectory_eq_ok_iff :
    h.makeDirectory p = .ok h' ↔
      ∃ dir n, h.EndsWith p dir n ∧ h.tree.get? (dir ++ [n]) = none ∧
        h' = { h with tree := h.tree.insert (dir ++ [n]) .newDirectory } := by
  unfold makeDirectory
  constructor
  · intro ok
    split at ok
    case h_1 => cases ok
    case h_2 => cases ok
    case h_3 dir n demands last =>
    split at ok
    case h_1 => cases ok
    case h_2 absent =>
    cases ok
    exact ⟨dir, n, (lastStep_eq_name_iff.mp last).1, absent, rfl⟩
  · rintro ⟨dir, n, ends, absent, rfl⟩
    rw [lastStep_eq_name_iff.mpr ⟨ends, rfl⟩]
    simp only [absent]

theorem onlyDirectories_of_makeDirectory (ok : h.makeDirectory p = .ok h') : h.OnlyDirectories h' := by
  obtain ⟨dir, n, -, absent, rfl⟩ := makeDirectory_eq_ok_iff.mp ok
  exact ⟨.insert absent rfl, ⟨rfl, rfl, rfl⟩⟩

theorem isDirectory_of_makeDirectory (ok : h.makeDirectory p = .ok h') : h'.isDirectory p = true := by
  have keeps := (onlyDirectories_of_makeDirectory ok).tree.keeps
  obtain ⟨dir, n, ends, -, rfl⟩ := makeDirectory_eq_ok_iff.mp ok
  have made : (h.tree.insert (dir ++ [n]) .newDirectory).isDirectory (dir ++ [n]) = true := by
    simp [FileTree.isDirectory, Entry.newDirectory, Entry.isDirectory]
  refine isDirectory_iff.mpr ⟨dir ++ [n], ?_, made⟩
  exact (ends.of_keeps keeps rfl).resolve (FileTree.isDirectory_iff.mp made) (by simp) fun _ => rfl

/-- Ensuring a directory makes it, or finds it and does nothing. -/
theorem ensureDirectory_cases (ok : h.ensureDirectory p = .ok h') :
    h.makeDirectory p = .ok h' ∨ h' = h ∧ h.isDirectory p = true := by
  unfold ensureDirectory at ok
  split at ok
  · next made => cases ok; exact .inl made
  · split at ok
    · next found => cases ok; exact .inr ⟨rfl, found.2⟩
    · cases ok

theorem onlyDirectories_of_ensureDirectory (ok : h.ensureDirectory p = .ok h') :
    h.OnlyDirectories h' := by
  rcases ensureDirectory_cases ok with made | ⟨rfl, -⟩
  · exact onlyDirectories_of_makeDirectory made
  · exact .refl h'

theorem isDirectory_of_ensureDirectory (ok : h.ensureDirectory p = .ok h') : h'.isDirectory p = true := by
  rcases ensureDirectory_cases ok with made | ⟨rfl, is⟩
  · exact isDirectory_of_makeDirectory made
  · exact is

/-- Where a directory is already, ensuring it does nothing. -/
theorem ensureDirectory_of_isDirectory (is : h.isDirectory p = true) : h.ensureDirectory p = .ok h := by
  have taken : h.makeDirectory p = .error (.system .alreadyExists) := by
    unfold makeDirectory
    rcases lastStep_of_isDirectory is with special | ⟨dir, n, demands, last, c, found⟩
    · rw [special]
    · rw [last]
      unfold FileTree.shapeAt at found
      obtain ⟨e, there, -⟩ := Option.map_eq_some_iff.mp found
      simp only [there]
  rw [ensureDirectory, taken]
  exact if_pos ⟨rfl, is⟩

theorem ensureEach_onlyDirectories (h : Host) (ps : List Path) :
    h.OnlyDirectories (h.ensureEach ps).2 := by
  induction ps generalizing h with
  | nil => exact .refl h
  | cons p ps ih =>
      rw [ensureEach]
      split
      · next h' ok => exact (onlyDirectories_of_ensureDirectory ok).trans (ih h')
      · exact .refl h

theorem onlyDirectories_of_missingAncestors {ps : List Path}
    (ok : (h.missingAncestors ps).2 = .ok h') : h.OnlyDirectories h' := by
  induction ps with
  | nil => cases ok; exact .refl h
  | cons p ps ih =>
      rw [missingAncestors] at ok
      split at ok
      · next made => cases ok; exact onlyDirectories_of_ensureDirectory made
      · split at ok
        · exact ih ok
        · cases ok

theorem makeDirectories_onlyDirectories (h : Host) (p : Path) :
    h.OnlyDirectories (h.makeDirectories p).2 := by
  unfold makeDirectories
  cases outcome : (h.missingAncestors p.ancestors).2 with
  | error e => simpa only [outcome] using OnlyDirectories.refl h
  | ok h' =>
      simp only [outcome]
      exact (onlyDirectories_of_missingAncestors outcome).trans (ensureEach_onlyDirectories _ _)

/-- Where a directory is already, making it and what is above it does nothing. -/
theorem makeDirectories_of_isDirectory (is : h.isDirectory p = true) :
    h.makeDirectories p = (.ok (), h) := by
  have outcome : h.missingAncestors p.ancestors = ([], .ok h) := by
    unfold Path.ancestors
    cases p.bytes.length with
    | zero => rfl
    | succ fuel =>
        rw [Path.ancestorsUpTo]
        cases p.parent? with
        | none => rfl
        | some q => rw [missingAncestors, ensureDirectory_of_isDirectory is]
  rw [makeDirectories, outcome]
  rfl

/-! ### Handing over -/

/-- The owner of a directory is kept on a directory. -/
theorem isDirectory_ownerLocation (directory : h.tree.isDirectory l = true) :
    h.tree.isDirectory (h.ownerLocation l) = true := by
  unfold ownerLocation
  split
  · split
    · next both => exact (Bool.and_eq_true_iff.mp both).2
    · exact directory
  · exact directory

theorem onlyDirectories_of_changeOwner {uid gid : UInt32} (is : h.isDirectory p = true)
    (ok : h.changeOwner p uid gid = .ok h') : h.OnlyDirectories h' := by
  obtain ⟨l, resolved, directory⟩ := isDirectory_iff.mp is
  rw [changeOwner, resolved] at ok
  simp only at ok
  split at ok
  · cases ok
  · split at ok
    · cases ok
      exact ⟨.setOwner (isDirectory_ownerLocation directory) _, ⟨rfl, rfl, rfl⟩⟩
    · cases ok

theorem tryChangeOwner_onlyDirectories (is : h.isDirectory p = true) (uid gid : UInt32) :
    h.OnlyDirectories (h.tryChangeOwner p uid gid) := by
  unfold tryChangeOwner
  cases changed : h.changeOwner p uid gid with
  | error e => exact .refl h
  | ok h' => exact onlyDirectories_of_changeOwner is changed

/-- Whatever a path leads to, handing it over is nothing that a walk sees. -/
theorem tryChangeOwner_same (h : Host) (p : Path) (uid gid : UInt32) :
    h.SameSetting (h.tryChangeOwner p uid gid) ∧
      ∀ k, (h.tryChangeOwner p uid gid).tree.shapeAt k = h.tree.shapeAt k := by
  unfold tryChangeOwner changeOwner
  split
  · exact ⟨.refl h, fun _ => rfl⟩
  · dsimp only
    split
    · exact ⟨.refl h, fun _ => rfl⟩
    · split
      · exact ⟨⟨rfl, rfl, rfl⟩, fun k => FileTree.shapeAt_setOwner _ _ _ _⟩
      · exact ⟨.refl h, fun _ => rfl⟩

end Host

open Host

variable {h h' : Host} {base p : Path} {uid gid : UInt32} {owner : Option Owner}

theorem onlyDirectories_of_ensureOwnedDirectory (ok : ensureOwnedDirectory h p owner = .ok h') :
    h.OnlyDirectories h' := by
  unfold ensureOwnedDirectory at ok
  split at ok
  · cases ok
  · next h₁ made =>
      have before := onlyDirectories_of_ensureDirectory made
      cases owner with
      | none => cases ok; exact before
      | some o =>
          cases ok
          exact before.trans (tryChangeOwner_onlyDirectories (isDirectory_of_ensureDirectory made) _ _)

theorem ensureChain_onlyDirectories (owner : Option Owner) (h : Host) (dir : Path) (ns : List Name) :
    h.OnlyDirectories (ensureChain owner h dir ns).2 := by
  induction ns generalizing h dir with
  | nil => exact .refl h
  | cons n ns ih =>
      rw [ensureChain]
      split
      · exact .refl h
      · next h' ok => exact (onlyDirectories_of_ensureOwnedDirectory ok).trans (ih h' _)

/-- Making directories below a base changes nothing but directories, also where it
fails half way. -/
theorem createDirectories_onlyDirectories (h : Host) (base p : Path) (uid gid : UInt32) :
    h.OnlyDirectories (createDirectories h base p uid gid).2 := by
  unfold createDirectories
  split
  · exact .refl h
  · next names _ =>
      have above := makeDirectories_onlyDirectories h base
      split
      · next h' made => rw [made] at above; exact above
      · next h' made =>
          rw [made] at above
          exact above.trans (ensureChain_onlyDirectories _ _ _ _)

end Sandbox
