import Sandbox.Proofs.Host.Touch
import Sandbox.Proofs.Path.Descend

/-!
Directories that are there and belong to somebody.

A path provides a directory if it leads to one, and to one with the owner that is named
(`Host.Provides`). The owner is the one that is seen, which an overlay keeps on the layer
that is written to; so the layers that are written to have to be directories
(`Host.Coherent`). Making directories and handing them to that owner loses nothing
(`Host.Settles`), and what was provided stays so (`Host.Settles.provides`).

A path that goes on leads somewhere only if it leads to a directory on the way
(`Host.isDirectory_of_resolve_descend`), and a base that was made is a directory
(`Host.isDirectory_of_makeDirectories`, `Host.isDirectory_of_isRoot`).
-/

namespace Sandbox

open Sandbox.Path

namespace FileTree

variable {t t' : FileTree} {M : Location → Prop} {k l : Location} {e : Entry}

/-- A walk stays in a directory as long as it meets dots alone. -/
theorem walk_dots {ss : List Name} (directory : t.isDirectory l = true) (dots : ∀ s ∈ ss, s = dot) (n : Nat) :
    t.walk n l ss = .ok l := by
  induction ss with
  | nil => exact walk_nil t n l
  | cons s ss ih =>
      obtain ⟨rfl, rest⟩ := List.forall_mem_cons.mp dots
      have stay : t.step l dot = .ok (.place l) := step_eq_ok_iff.mpr ⟨isDirectory_iff.mp directory, .stay⟩
      rw [walk_cons_place stay, ih rest]

/-- Where only directories are made, what stood somewhere stands there unchanged. -/
theorem Touches.get?_of_unowned (h : t.Touches M (fun _ => False) t') (found : t.get? k = some e) :
    t'.get? k = some e := by
  have touched := h k
  rw [found] at touched
  generalize t'.get? k = after at touched ⊢
  cases touched with
  | same => rfl
  | owned _ own => exact own.elim

end FileTree

namespace Host

variable {h h' h'' : Host} {p : Path} {l : Location} {n : Name} {ms : List Name} {owner : Option Owner}

/-! ### Paths that go on -/

/-- A path leads on only from a directory. -/
theorem isDirectory_of_resolve_child (ordinary : Ordinary n) (nonempty : p.bytes ≠ [])
    (resolved : h.resolve (p.child n) = .ok l) : h.isDirectory p = true := by
  obtain ⟨⟨zero, -, short⟩, walked⟩ := resolve_eq_ok_iff.mp resolved
  have accepted : p.Accepted := by
    refine ⟨?_, nonempty, ?_⟩
    · rw [hasZeroByte_child p ordinary] at zero
      exact (Bool.or_eq_false_iff.mp zero).1
    · rw [bytes_child p ordinary, List.length_append] at short
      rcases stem_cases p with ⟨empty, -⟩ | ⟨bs, stem, bytes | ⟨bytes, -⟩⟩
      · exact absurd empty nonempty
      · rw [stem] at short
        rw [bytes]
        omega
      · rw [stem, List.length_append] at short
        rw [bytes]
        omega
  rw [steps_child p ordinary, origin_child p ordinary] at walked
  obtain ⟨k, before⟩ := FileTree.walk_prefix walked
  obtain ⟨left, after⟩ := FileTree.walk_append before
  obtain ⟨r, step⟩ := FileTree.step_of_walk_cons ((after _).1.symm.trans walked)
  have directory := (FileTree.step_eq_ok_iff.mp step).1
  refine isDirectory_iff.mpr ⟨k, resolve_eq_ok_iff.mpr ⟨accepted, ?_⟩, FileTree.isDirectory_iff.mpr directory⟩
  by_cases trailing : p.hasTrailingSeparator = true
  · have stay : h.tree.step k dot = .ok (.place k) := FileTree.step_eq_ok_iff.mpr ⟨directory, .stay⟩
    rw [show p.steps = p.names ++ [dot] from if_pos trailing, (after _).1, FileTree.walk_cons_place stay,
      FileTree.walk_nil]
  · rw [show p.steps = p.names from if_neg trailing]
    exact before

theorem isDirectory_of_resolve_descend (ordinary : ∀ m ∈ ms, Ordinary m) (nonempty : p.bytes ≠ [])
    (some : ms ≠ []) (resolved : h.resolve (p.descend ms) = .ok l) : h.isDirectory p = true := by
  induction ms generalizing p with
  | nil => exact absurd rfl some
  | cons m ms ih =>
      obtain ⟨first, rest⟩ := List.forall_mem_cons.mp ordinary
      cases ms with
      | nil => exact isDirectory_of_resolve_child first nonempty resolved
      | cons m' ms' =>
          have next := ih rest (bytes_child_ne_nil p first) (List.cons_ne_nil _ _) resolved
          obtain ⟨k, there, -⟩ := isDirectory_iff.mp next
          exact isDirectory_of_resolve_child first nonempty there

/-- However the root is written, it leads to a directory, unless in too many bytes. -/
theorem isDirectory_of_isRoot (root : p.IsRoot) (short : p.bytes.length ≤ maxPathLength)
    (directory : h.tree.isDirectory [] = true) : h.isDirectory p = true := by
  have names : ∀ s ∈ p.names, s = dot := by
    intro s mem
    obtain ⟨segment, nonempty⟩ := List.mem_filter.mp mem
    have skipped := root.skipped s segment
    simp only [isSkipped, Bool.or_eq_true, decide_eq_true_eq] at skipped
    exact skipped.resolve_left (of_decide_eq_true nonempty)
  have steps : ∀ s ∈ p.steps, s = dot := by
    change ∀ s ∈ (if p.hasTrailingSeparator then p.names ++ [dot] else p.names), s = dot
    split
    · intro s mem
      rcases List.mem_append.mp mem with named | last
      · exact names s named
      · exact List.mem_singleton.mp last
    · exact names
  have zero : p.hasZeroByte = false := by
    rw [Path.hasZeroByte, List.contains_eq_mem, decide_eq_false_iff_not]
    intro mem
    have written : 0 = separator ∨ ∃ s ∈ split p.bytes, 0 ∈ s := Separated.eq_or_mem_of_mem mem
    rcases written with separates | ⟨s, segment, inside⟩
    · exact absurd separates (by decide)
    · have skipped := root.skipped s segment
      simp only [isSkipped, Bool.or_eq_true, decide_eq_true_eq] at skipped
      rcases skipped with rfl | rfl
      · cases inside
      · exact absurd inside (by decide)
  have nonempty : p.bytes ≠ [] := by
    intro empty
    have absolute := root.absolute
    rw [isAbsolute, empty] at absolute
    cases absolute
  have origin : p.origin h.workingDirectory = [] := if_pos root.absolute
  refine isDirectory_iff.mpr ⟨[], resolve_eq_ok_iff.mpr ⟨⟨zero, nonempty, short⟩, ?_⟩, directory⟩
  rw [origin]
  exact FileTree.walk_dots directory steps maxLinks

/-! ### Making a base -/

theorem isDirectory_of_ensureEach {ps : List Path} (ok : h.ensureEach ps = (.ok (), h')) :
    ∀ p ∈ ps, h'.isDirectory p = true := by
  induction ps generalizing h with
  | nil => exact nofun
  | cons q ps ih =>
      rw [ensureEach] at ok
      split at ok
      case h_2 => cases ok
      case h_1 h₁ made =>
      have only := ensureEach_onlyDirectories h₁ ps
      rw [ok] at only
      exact List.forall_mem_cons.mpr ⟨only.isDirectory (isDirectory_of_ensureDirectory made), ih ok⟩

/-- Nothing is done for a path that has nothing above it. -/
theorem makeDirectories_of_parent? (none : p.parent? = none) (h : Host) : h.makeDirectories p = (.ok (), h) := by
  have alone : p.ancestors = [] := by
    unfold ancestors
    cases p.bytes.length with
    | zero => rfl
    | succ fuel => rw [ancestorsUpTo, none]
  rw [makeDirectories, alone]
  rfl

/-- Any other path leads to a directory once it is made. -/
theorem isDirectory_of_makeDirectories {q : Path} (parent : p.parent? = some q)
    (ok : h.makeDirectories p = (.ok (), h')) : h'.isDirectory p = true := by
  have nonempty : p.bytes.length ≠ 0 := by
    intro empty
    obtain ⟨bs⟩ := p
    cases List.length_eq_zero_iff.mp empty
    cases parent
  obtain ⟨fuel, length⟩ := Nat.exists_eq_succ_of_ne_zero nonempty
  have first : p.ancestors = p :: ancestorsUpTo fuel q := by
    rw [ancestors, length, ancestorsUpTo, parent]
  rw [makeDirectories, first, missingAncestors] at ok
  cases made : h.ensureDirectory p with
  | ok h₁ =>
      simp only [made] at ok
      cases ok
      exact isDirectory_of_ensureDirectory made
  | error e =>
      simp only [made] at ok
      by_cases missing : e = .system .noEntry
      · rw [if_pos missing] at ok
        dsimp only at ok
        split at ok
        case h_1 => cases ok
        case h_2 =>
        -- What was missing is made in the end, the path itself last.
        refine isDirectory_of_ensureEach ok p ?_
        simp
      · rw [if_neg missing] at ok
        cases ok

/-! ### Owners that are seen -/

/-- A host as a system keeps it: its root is a directory, and so are the layers that
mounted overlays are written to. -/
structure Coherent (h : Host) : Prop where
  root : h.tree.isDirectory [] = true
  layers : ∀ m ∈ h.mounts, h.tree.isDirectory m.upper = true

/-- The owner that is seen at a place. -/
def ownerSeen (h : Host) (l : Location) : Option Owner :=
  (h.tree.get? (h.ownerLocation l)).map Entry.owner

namespace Coherent

theorem of_onlyDirectories (coherent : h.Coherent) (only : h.OnlyDirectories h') : h'.Coherent where
  root := only.tree.isDirectory coherent.root
  layers := by
    intro m mem
    rw [only.setting.mounts] at mem
    exact only.tree.isDirectory (coherent.layers m mem)

end Coherent

/-- New directories and new owners do not move the owner of a directory elsewhere. -/
theorem OnlyDirectories.ownerLocation_eq (only : h.OnlyDirectories h') (coherent : h.Coherent)
    (directory : h.tree.isDirectory l = true) : h'.ownerLocation l = h.ownerLocation l := by
  unfold ownerLocation
  rw [only.setting.mounts]
  split
  · next m found =>
      have upper := coherent.layers m (List.mem_of_find?_eq_some found)
      rw [only.tree.isDirectory directory, only.tree.isDirectory upper, directory, upper]
  · rfl

/-- A path leads to a directory, which belongs to an owner if one is named. -/
def Provides (h : Host) (owner : Option Owner) (p : Path) : Prop :=
  ∃ l, h.resolve p = .ok l ∧ h.tree.isDirectory l = true ∧ ∀ o ∈ owner, h.ownerSeen l = some o

theorem Provides.isDirectory (provides : h.Provides owner p) : h.isDirectory p = true := by
  obtain ⟨l, resolved, directory, -⟩ := provides
  exact isDirectory_iff.mpr ⟨l, resolved, directory⟩

/-- Whether a directory is provided is a matter of the entries that a host holds. -/
theorem Provides.of_agreeOn (provides : h.Provides owner p) (agree : AgreeOn (fun _ => True) h h') :
    h'.Provides owner p := by
  obtain ⟨l, resolved, directory, owned⟩ := provides
  refine ⟨l, ?_, (agree.isDirectory trivial).trans directory, ?_⟩
  · rw [← resolved]
    exact resolve_congr agree.setting.workingDirectory fun k _ => agree.shapeAt trivial
  · intro o named
    have place : h'.ownerLocation l = h.ownerLocation l := by
      unfold ownerLocation
      simp only [agree.setting.mounts, agree.isDirectory trivial]
    rw [ownerSeen, place, agree.get? _ trivial]
    exact owned o named

/-! ### What a step settles -/

/-- What becomes of a host where directories are made and handed to an owner: what was
there is there, with its own owner or with this one. -/
structure Settles (owner : Option Owner) (h h' : Host) : Prop where
  only : h.OnlyDirectories h'
  owners : ∀ k e, h.tree.get? k = some e →
    ∃ e', h'.tree.get? k = some e' ∧ (e' = e ∨ ∃ o ∈ owner, e' = { e with owner := o })

namespace Settles

theorem refl (owner : Option Owner) (h : Host) : Settles owner h h where
  only := .refl h
  owners _ e found := ⟨e, found, .inl rfl⟩

theorem trans (s : Settles owner h h') (s' : Settles owner h' h'') : Settles owner h h'' where
  only := s.only.trans s'.only
  owners := by
    intro k e found
    obtain ⟨e', found', change⟩ := s.owners k e found
    obtain ⟨e'', found'', change'⟩ := s'.owners k e' found'
    refine ⟨e'', found'', ?_⟩
    rcases change' with rfl | ⟨o, named, rfl⟩
    · exact change
    · rcases change with rfl | ⟨o', -, rfl⟩
      · exact .inr ⟨o, named, rfl⟩
      · exact .inr ⟨o, named, rfl⟩

theorem of_touches {M : Location → Prop} (touches : h.Touches M (fun _ => False) h') : Settles owner h h' where
  only := touches.onlyDirectories
  owners _ e found := ⟨e, touches.tree.get?_of_unowned found, .inl rfl⟩

/-- Where nobody is named, nothing that was there changes. -/
theorem kept (s : Settles none h h') (k : Location) (e : Entry) (found : h.tree.get? k = some e) :
    h'.tree.get? k = some e := by
  obtain ⟨e', found', rfl | ⟨o, named, -⟩⟩ := s.owners k e found
  · exact found'
  · cases named

/-- What is provided stays so. -/
theorem provides (s : Settles owner h h') (coherent : h.Coherent) (provides : h.Provides owner p) :
    h'.Provides owner p := by
  obtain ⟨l, resolved, directory, owned⟩ := provides
  refine ⟨l, resolve_of_keeps s.only.tree.keeps s.only.setting.workingDirectory resolved,
    s.only.tree.isDirectory directory, ?_⟩
  intro o named
  have seen := owned o named
  unfold ownerSeen at seen ⊢
  obtain ⟨e, found, belongs⟩ := Option.map_eq_some_iff.mp seen
  obtain ⟨e', found', change⟩ := s.owners _ e found
  rw [s.only.ownerLocation_eq coherent directory, found', Option.map_some]
  rcases change with rfl | ⟨o', named', rfl⟩
  · rw [belongs]
  · rw [← Option.mem_unique named named']

end Settles

/-- The ids of an owner that is named coherent for somebody. -/
def Nameable (owner : Option Owner) : Prop :=
  ∀ o ∈ owner, o.uid ≠ unchangedId ∧ o.gid ≠ unchangedId

/-- Handing a directory over settles it. -/
theorem tryChangeOwner_settles {o : Owner} (is : h.isDirectory p = true) (coherent : h.Coherent)
    (allowed : h.privileges.changeOwner = true) (nameable : Nameable (some o)) :
    Settles (some o) h (h.tryChangeOwner p o.uid o.gid) ∧
      (h.tryChangeOwner p o.uid o.gid).Provides (some o) p := by
  obtain ⟨user, group⟩ := nameable o rfl
  have only := tryChangeOwner_onlyDirectories is o.uid o.gid
  obtain ⟨l, resolved, directory⟩ := isDirectory_iff.mp is
  have kept : h.tree.isDirectory (h.ownerLocation l) = true := isDirectory_ownerLocation directory
  obtain ⟨e, found, -⟩ := Option.map_eq_some_iff.mp (FileTree.isDirectory_iff.mp kept)
  have entries (k : Location) : (h.tryChangeOwner p o.uid o.gid).tree.get? k =
      if k = h.ownerLocation l then some { e with owner := o } else h.tree.get? k := by
    rw [tryChangeOwner_eq resolved, get?_handOverAt found allowed, handOver_eq user group]
  constructor
  · refine ⟨only, fun k e₀ before => ?_⟩
    rw [entries]
    by_cases here : k = h.ownerLocation l
    · subst here
      cases found.symm.trans before
      exact ⟨_, if_pos rfl, .inr ⟨o, rfl, rfl⟩⟩
    · exact ⟨e₀, (if_neg here).trans before, .inl rfl⟩
  · refine ⟨l, resolve_of_keeps only.tree.keeps only.setting.workingDirectory resolved,
      only.tree.isDirectory directory, ?_⟩
    rintro o' ⟨⟩
    rw [ownerSeen, only.ownerLocation_eq coherent directory, entries, if_pos rfl, Option.map_some]

end Host

end Sandbox
