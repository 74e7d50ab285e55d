import Sandbox.Proofs.Host.Directories
import Sandbox.Spec.Basic

/-!
Saving a specification: all or nothing.

A failure leaves the host exactly as it was, the temporary file included
(`save_eq`). A success puts one file where the path points and leaves every other
location alone (`save_eq_ok`); whom the file belongs to is settled at the very end.
-/

namespace Sandbox

namespace FileTree

variable {t : FileTree} {l : Location} {e e' : Entry}

/-- Erasing where nothing stands changes nothing. -/
theorem erase_of_get?_eq_none (absent : t.get? l = none) : t.erase l = t := by
  refine congrArg FileTree.mk (List.filter_eq_self.mpr fun m mem => ?_)
  have differs := List.lookup_eq_none_iff.mp absent m mem
  exact decide_eq_true (bne_iff_ne.mp differs).symm

theorem erase_insert (t : FileTree) (l : Location) (e : Entry) : (t.insert l e).erase l = t.erase l := by
  simp [insert, erase]

theorem insert_insert (t : FileTree) (l : Location) (e e' : Entry) :
    (t.insert l e).insert l e' = t.insert l e' :=
  congrArg (fun u : FileTree => FileTree.mk ((l, e') :: u.entries)) (erase_insert t l e)

theorem shapeAt_insert_of_ne (t : FileTree) (e : Entry) {k : Location} (ne : k ≠ l) :
    (t.insert l e).shapeAt k = t.shapeAt k := by
  unfold shapeAt
  rw [get?_insert_of_ne t e ne]

theorem shapeAt_insert_self (t : FileTree) (l : Location) (e : Entry) :
    (t.insert l e).shapeAt l = some e.content.shape := by
  rw [shapeAt, get?_insert_self, Option.map_some]

/-- Where nothing stands a walk sees nothing lost when something is put there. -/
theorem keeps_insert (absent : t.get? l = none) : t.Keeps (t.insert l e) := by
  intro k c found
  rw [shapeAt_insert_of_ne t e fun same => ?_]
  · exact found
  · rw [shapeAt, same, absent] at found
    cases found

end FileTree

namespace Host

variable {h h' : Host} {p : Path} {l dir file : Location} {n : Name} {e : Entry}

/-- The second host is the first with an entry put at a location. -/
structure Holds (h h' : Host) (l : Location) (e : Entry) : Prop where
  setting : h.SameSetting h'
  get? : ∀ k, h'.tree.get? k = if k = l then some e else h.tree.get? k

theorem setMode_insert (h : Host) (l : Location) (e : Entry) (mode : Nat) :
    setMode { h with tree := h.tree.insert l e } l mode =
      { h with tree := h.tree.insert l { e with mode } } := by
  simp only [setMode, FileTree.get?_insert_self, FileTree.insert_insert]

/-- Removing what was put where nothing stood restores the host. -/
theorem removeEntry_insert (absent : h.tree.get? l = none) (e : Entry) :
    removeEntry { h with tree := h.tree.insert l e } l = h := by
  simp only [removeEntry, FileTree.erase_insert, FileTree.erase_of_get?_eq_none absent]

/-- A path through directories does not notice a file more. -/
theorem EndsWith.of_insert (other : e.content.shape = .other)
    (ends : EndsWith { h with tree := h.tree.insert file e } p dir n) : h.EndsWith p dir n := by
  obtain ⟨accepted, ⟨ns, names, walked⟩, directory, notDot, notDotDot, short⟩ := ends
  have directories := FileTree.shape_of_walk directory walked
  have avoids {k : Location} (shape : (h.tree.insert file e).shapeAt k ≠ some .other) : k ≠ file :=
    fun same => shape (by rw [same, FileTree.shapeAt_insert_self, other])
  refine ⟨accepted, ⟨ns, names, ?_⟩, ?_, notDot, notDotDot, short⟩
  · refine (FileTree.walk_congr fun k hk => ?_).trans walked
    exact (FileTree.shapeAt_insert_of_ne h.tree e (avoids (directories k hk))).symm
  · have shape := FileTree.isDirectory_iff.mp directory
    rw [FileTree.shapeAt_insert_of_ne h.tree e (avoids (by simp [shape]))] at shape
    exact FileTree.isDirectory_iff.mpr shape

/-- A file is moved to a name in a directory that no directory has. -/
theorem moveFile_eq_ok_iff :
    h.moveFile file p = .ok h' ↔
      ∃ dir n e, h.EndsWith p dir n ∧ p.hasTrailingSeparator = false ∧
        h.tree.isDirectory (dir ++ [n]) = false ∧ h.tree.get? file = some e ∧
        h' = { h with tree := (h.tree.erase file).insert (dir ++ [n]) e } := by
  unfold moveFile
  constructor
  · intro ok
    split at ok
    case isTrue => cases ok
    split at ok
    case h_1 => cases ok
    case h_2 => cases ok
    case h_3 dir n demands last =>
    obtain ⟨ends, rfl⟩ := lastStep_eq_name_iff.mp last
    dsimp only at ok
    split at ok
    case isTrue => cases ok
    case isFalse trailing =>
    split at ok
    case isTrue => cases ok
    case isFalse directory =>
    split at ok
    case h_1 => cases ok
    case h_2 e found =>
    cases ok
    exact ⟨dir, n, e, ends, by simpa using trailing, by simpa using directory, found, rfl⟩
  · rintro ⟨dir, n, e, ends, trailing, directory, found, rfl⟩
    rw [if_neg (by simp [ends.accepted.noZeroByte]), lastStep_eq_name_iff.mpr ⟨ends, rfl⟩]
    simp [trailing, directory, found]

end Host

namespace Spec

open Host

variable {s : Spec} {h h' : Host} {p : Path} {uid gid : UInt32}

/-- A specification as the entry of a file, before it is handed over. -/
def fileEntry (s : Spec) : Entry :=
  ⟨.file (Utf8.encode s.toJson.pretty.toList), .root, fileMode⟩

/-- Saving in one formula: a temporary file is added and moved, and where that cannot
be done the host is the one before. -/
theorem save_eq (s : Spec) (h : Host) (p : Path) (uid gid : UInt32) :
    s.save h p uid gid =
      let dir := p.parent?.getD (.ofString ".")
      match h.temporaryDirectory dir with
      | .error e => (.error (.io dir e), h)
      | .ok l =>
        match freeName? h.tree l with
        | none => (.error (.io dir (.system .alreadyExists)), h)
        | some n =>
          match moveFile { h with tree := h.tree.insert (l ++ [n]) s.fileEntry } (l ++ [n]) p with
          | .error e => (.error (.io p e), h)
          | .ok h' => (.ok (), h'.tryChangeOwner p uid gid) := by
  unfold save makeTemporary
  dsimp only
  cases h.temporaryDirectory (p.parent?.getD (.ofString ".")) with
  | error e => rfl
  | ok l =>
      dsimp only
      cases free : freeName? h.tree l with
      | none => rfl
      | some n =>
          dsimp only
          have absent : h.tree.get? (l ++ [n]) = none := by
            simpa using List.find?_some free
          rewrite [setMode_insert, show { Entry.newFile _ with mode := fileMode } = s.fileEntry from rfl,
            removeEntry_insert absent]
          rfl

/-- A specification that cannot be saved leaves the host as it was. -/
theorem save_of_error {e : Error} (failed : (s.save h p uid gid).1 = .error e) :
    (s.save h p uid gid).2 = h := by
  rw [save_eq] at failed ⊢
  dsimp only at failed ⊢
  split at failed
  · rfl
  · split at failed
    · rfl
    · split at failed
      · rfl
      · cases failed

/-- A specification that is saved stands where the path points, and nothing else is
changed before it is handed over. -/
theorem save_eq_ok (ok : (s.save h p uid gid).1 = .ok ()) :
    ∃ dir n h₁, h.EndsWith p dir n ∧ p.hasTrailingSeparator = false ∧
      h.tree.isDirectory (dir ++ [n]) = false ∧ h.Holds h₁ (dir ++ [n]) s.fileEntry ∧
      (s.save h p uid gid).2 = h₁.tryChangeOwner p uid gid := by
  rw [save_eq] at ok ⊢
  dsimp only at ok ⊢
  split at ok
  case h_1 => cases ok
  case h_2 l _ =>
  split at ok
  case h_1 => cases ok
  case h_2 m free =>
  split at ok
  case h_1 => cases ok
  case h_2 h₁ moved =>
  have absent : h.tree.get? (l ++ [m]) = none := by
    simpa using List.find?_some free
  obtain ⟨dir, n, e, ends, trailing, directory, found, rfl⟩ := moveFile_eq_ok_iff.mp moved
  dsimp only at directory found
  rw [FileTree.get?_insert_self] at found
  cases found
  refine ⟨dir, n, { h with tree := (h.tree.erase (l ++ [m])).insert (dir ++ [n]) s.fileEntry },
    ends.of_insert rfl, trailing, ?_, ⟨⟨rfl, rfl, rfl⟩, fun k => ?_⟩, ?_⟩
  · by_cases same : dir ++ [n] = l ++ [m]
    · simp [same, FileTree.isDirectory, absent]
    · rwa [FileTree.isDirectory_eq_of_shapeAt (FileTree.shapeAt_insert_of_ne _ _ same)] at directory
  · rw [FileTree.get?_insert, FileTree.erase_of_get?_eq_none absent]
  · simp only [FileTree.erase_insert]

end Spec

end Sandbox
