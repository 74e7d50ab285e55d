import Sandbox.Proofs.Host.Leads
import Sandbox.Proofs.Spec.File

/-!
Saving a specification below a directory.

Once a path leads to a directory, saving under a name there depends on the entry that
has the name and on nothing else of the files (`save_child`). A free name for the
temporary file is always found, since there is one more name to try than the tree has
entries (`exists_freeName?`), and the file leaves no trace: what counts is the length of
the path by which it is asked for.
-/

namespace Sandbox

open Sandbox.Path

namespace Host

theorem temporaryName_injective {j k : Nat} (same : temporaryName j = temporaryName k) : j = k := by
  have texts := List.append_cancel_left
    ((List.append_assoc ..).symm.trans ((Utf8.encode_injective same).trans (List.append_assoc ..)))
  -- The zeros in front do not change the number that the digits stand for.
  have value (n : Nat) : Nat.ofDigitChars 10
      (List.replicate (6 - (Nat.toDigits 10 n).length) '0' ++ Nat.toDigits 10 n) 0 = n := by
    rw [Nat.ofDigitChars_append, Nat.ofDigitChars_replicate_zero, Nat.mul_zero,
      Nat.ofDigitChars_ten_toDigits]
  rw [← value j, texts, value k]

theorem exists_freeName? (t : FileTree) (dir : Location) : ∃ n, freeName? t dir = some n := by
  cases free : freeName? t dir with
  | some n => exact ⟨n, rfl⟩
  | none =>
      let tried := (List.range (t.size + 1)).map fun k => dir ++ [temporaryName k]
      have different : tried.Nodup := by
        refine List.pairwise_map.mpr (List.nodup_range.imp fun ne same => ne ?_)
        exact temporaryName_injective (by simpa using same)
      have taken : tried ⊆ t.entries.map (·.1) := by
        intro l mem
        obtain ⟨k, inRange, rfl⟩ := List.mem_map.mp mem
        have all := List.find?_eq_none.mp free (temporaryName k) (List.mem_map_of_mem inRange)
        obtain ⟨e, found⟩ := Option.ne_none_iff_exists'.mp (mt Option.isNone_iff_eq_none.mpr all)
        obtain ⟨front, back, entries, -⟩ := List.lookup_eq_some_iff.mp found
        simp [entries]
      have few := different.length_le_of_subset taken
      simp only [tried, List.length_map, List.length_range, FileTree.size] at few
      exact absurd few (Nat.not_succ_le_self _)

variable {V : Location → Prop} {h : Host} {p : Path} {l file : Location} {n : Name} {e : Entry}

theorem LeadsBy.temporaryDirectory (leads : h.LeadsBy V p l) :
    h.temporaryDirectory p =
      if maxPathLength < (h.temporaryPath p).bytes.length then .error (.system .nameTooLong)
      else .ok l := by
  obtain ⟨accepted, walked⟩ := resolve_eq_ok_iff.mp leads.resolve
  rw [Host.temporaryDirectory, if_neg (by simp [accepted.noZeroByte]), walked]
  simp only [leads.directory, if_true]

/-- A directory is reached as before when a file is put where nothing or a file stood. -/
theorem LeadsBy.insert (leads : h.LeadsBy V p l) (clear : ∀ k, V k ∨ k = l → k ≠ file) (e : Entry) :
    LeadsBy { h with tree := h.tree.insert file e } V p l :=
  leads.of_keeps rfl fun k c seen found => by
    rw [FileTree.shapeAt_insert_of_ne h.tree e (clear k seen), found]

/-- A file takes the place of what has its name, unless that is a directory. -/
theorem LeadsBy.moveFile_child (leads : h.LeadsBy V p l) (ordinary : Ordinary n)
    (noZero : n.contains 0 = false) (found : h.tree.get? file = some e) :
    h.moveFile file (p.child n) =
      match p.refusal? n with
      | some e => .error e
      | none =>
        if h.tree.isDirectory (l ++ [n]) then .error (.system .isDirectory)
        else .ok { h with tree := (h.tree.erase file).insert (l ++ [n]) e } := by
  have accepted := (resolve_eq_ok_iff.mp leads.resolve).1
  have zero : (p.child n).hasZeroByte = false := by
    rw [hasZeroByte_child p ordinary, accepted.noZeroByte, noZero]
    rfl
  rw [moveFile, if_neg (by simp [zero]), leads.lastStep_child ordinary]
  cases p.refusal? n with
  | some e => rfl
  | none => simp only [found, Bool.false_eq_true, if_false]

end Host

namespace Spec

open Host

variable {S V V' : Location → Prop} {s : Spec} {h h' : Host} {p : Path} {l : Location} {n : Name}

variable (parent : (p.child n).parent? = some p) (ordinary : Ordinary n) (noZero : n.contains 0 = false)

include parent ordinary noZero

/-- Saving below a directory, as a matter of the entry that has the name. A file put
there must not be on the way to the directory. -/
theorem save_child (leads : h.LeadsBy V p l)
    (clear : h.tree.isDirectory (l ++ [n]) = false → ∀ k, V k → k ≠ l ++ [n]) (uid gid : UInt32) :
    s.save h (p.child n) uid gid =
      if maxPathLength < (h.temporaryPath p).bytes.length then
        (.error (.io p (.system .nameTooLong)), h)
      else
        match p.refusal? n with
        | some e => (.error (.io (p.child n) e), h)
        | none =>
          if h.tree.isDirectory (l ++ [n]) then (.error (.io (p.child n) (.system .isDirectory)), h)
          else
            (.ok (), handOverAt { h with tree := h.tree.insert (l ++ [n]) s.fileEntry }
              (l ++ [n]) uid gid) := by
  rw [save_eq, parent, Option.getD_some]
  dsimp only
  rw [leads.temporaryDirectory]
  by_cases long : maxPathLength < (h.temporaryPath p).bytes.length
  · rw [if_pos long, if_pos long]
  rw [if_neg long, if_neg long]
  obtain ⟨m, free⟩ := exists_freeName? h.tree l
  have absent : h.tree.get? (l ++ [m]) = none := by
    simpa using List.find?_some free
  -- With the temporary file there, the directory is still reached.
  have reached : LeadsBy { h with tree := h.tree.insert (l ++ [m]) s.fileEntry } (fun _ => True) p l :=
    (leads.mono fun _ _ => trivial).of_keeps rfl fun k c _ => FileTree.keeps_insert absent k c
  have directory : (h.tree.insert (l ++ [m]) s.fileEntry).isDirectory (l ++ [n]) =
      h.tree.isDirectory (l ++ [n]) := by
    by_cases same : l ++ [n] = l ++ [m]
    · simp [same, FileTree.isDirectory, absent, fileEntry, Entry.isDirectory]
    · exact FileTree.isDirectory_eq_of_shapeAt (FileTree.shapeAt_insert_of_ne _ _ same)
  dsimp only
  rw [free]
  dsimp only
  rw [reached.moveFile_child ordinary noZero (FileTree.get?_insert_self ..)]
  cases refused : p.refusal? n with
  | some e => rfl
  | none =>
      dsimp only
      rw [directory]
      by_cases taken : h.tree.isDirectory (l ++ [n]) = true
      · rw [if_pos taken, if_pos taken]
      · rw [if_neg taken, if_neg taken, FileTree.erase_insert, FileTree.erase_of_get?_eq_none absent]
        have file : (h.tree.insert (l ++ [n]) s.fileEntry).shapeAt (l ++ [n]) = some .other :=
          FileTree.shapeAt_insert_self _ _ _
        have saved : LeadsBy { h with tree := h.tree.insert (l ++ [n]) s.fileEntry } V p l :=
          leads.insert (fun k seen => seen.elim (clear (by simpa using taken) k) (by simp [·])) _
        have resolved := (saved.endsWith_child ordinary refused).resolve file (by simp)
          (by simp [hasTrailingSeparator_child p ordinary])
        have noDirectory : (h.tree.insert (l ++ [n]) s.fileEntry).isDirectory (l ++ [n]) = false := by
          rw [Bool.eq_false_iff, ne_eq, FileTree.isDirectory_iff, file]
          simp
        dsimp only
        rw [tryChangeOwner_eq resolved, ownerLocation_of_not_isDirectory noDirectory]

/-- Saving changes nothing but the entry that has the name, and nothing at all where
that is a directory. -/
theorem save_child_agreeOn (leads : h.LeadsBy V p l)
    (clear : h.tree.isDirectory (l ++ [n]) = false → ∀ k, V k → k ≠ l ++ [n]) (uid gid : UInt32) :
    AgreeOn (fun k => k = l ++ [n] → h.tree.isDirectory (l ++ [n]) = true) h
      (s.save h (p.child n) uid gid).2 := by
  rw [save_child parent ordinary noZero leads clear]
  split
  · exact .refl _ h
  · split
    · exact .refl _ h
    · split
      · exact .refl _ h
      · next file =>
          have both := (insert_agreeOn h (l ++ [n]) s.fileEntry).trans (handOverAt_agreeOn _ _ uid gid)
          exact both.mono fun k free same => file (free same)

/-- Hosts alike in the place of the file save alike and stay alike. -/
theorem save_child_congr (leads : h.LeadsBy V p l) (leads' : h'.LeadsBy V' p l)
    (clear : h.tree.isDirectory (l ++ [n]) = false → ∀ k, V k → k ≠ l ++ [n])
    (clear' : h'.tree.isDirectory (l ++ [n]) = false → ∀ k, V' k → k ≠ l ++ [n])
    (agree : AgreeOn S h h') (here : S (l ++ [n])) (uid gid : UInt32) :
    (s.save h' (p.child n) uid gid).1 = (s.save h (p.child n) uid gid).1 ∧
      AgreeOn S (s.save h (p.child n) uid gid).2 (s.save h' (p.child n) uid gid).2 := by
  have long : h'.temporaryPath p = h.temporaryPath p := by
    rw [temporaryPath, agree.setting.workingDirectory, temporaryPath]
  rw [save_child parent ordinary noZero leads clear, save_child parent ordinary noZero leads' clear',
    long, agree.isDirectory here]
  split
  · exact ⟨rfl, agree⟩
  · split
    · exact ⟨rfl, agree⟩
    · split
      · exact ⟨rfl, agree⟩
      · exact ⟨rfl, (agree.insert _ _).handOverAt here uid gid⟩

end Spec

end Sandbox
