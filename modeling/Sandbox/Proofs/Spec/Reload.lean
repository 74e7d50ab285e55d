import Sandbox.Proofs.Generate.Sample
import Sandbox.Proofs.Host.Document
import Sandbox.Proofs.Host.Leads
import Sandbox.Proofs.Spec.File
import Sandbox.Proofs.Spec.Readable

/-!
What is saved is found again.

A specification that has been saved is found at the same path, unless the path leads
through a symbolic link that stands at its own end: saving replaces that link, and the way
is lost (`Host.Straight`). The file holds the text of the document, which is readable
since the template was, so the document is read back (`Spec.saved_document_reloads`).
-/

namespace Sandbox

namespace Host

variable {h h' : Host} {p : Path} {l dir : Location} {n : Name} {e : Entry} {bytes : List UInt8}

/-- The way to the end of a path does not lead through a symbolic link that stands there. -/
def Straight (h : Host) (p : Path) : Prop :=
  ∀ dir n target, h.EndsWith p dir n → h.tree.shapeAt (dir ++ [n]) = some (.link target) →
    dir ++ [n] ∉ h.tree.visits maxLinks (p.origin h.workingDirectory) p.names.dropLast

/-- A straight path ends where it did when a file is put at its end. -/
theorem EndsWith.of_holds (ends : h.EndsWith p dir n) (straight : h.Straight p)
    (plain : h.tree.isDirectory (dir ++ [n]) = false) (holds : h.Holds h' (dir ++ [n]) e) :
    h'.EndsWith p dir n := by
  have through := straight dir n
  obtain ⟨accepted, ⟨ns, names, walked⟩, directory, notDot, notDotDot, short⟩ := id ends
  rw [names, List.dropLast_concat] at through
  have avoids : ∀ k ∈ h.tree.visits maxLinks (p.origin h.workingDirectory) ns, k ≠ dir ++ [n] := by
    rintro k mem rfl
    obtain ⟨c, found⟩ := Option.isSome_iff_exists.mp (FileTree.shapeAt_of_walk walked _ mem)
    cases c with
    | directory => simp [FileTree.isDirectory_iff.mpr found] at plain
    | other => exact FileTree.shape_of_walk directory walked _ mem found
    | link target => exact through target ends found mem
  have same {k : Location} (ne : k ≠ dir ++ [n]) : h'.tree.shapeAt k = h.tree.shapeAt k := by
    refine FileTree.shapeAt_eq_of_get? ?_
    rw [holds.get? k, if_neg ne]
  refine ⟨accepted, ⟨ns, names, ?_⟩, ?_, notDot, notDotDot, short⟩
  · rw [holds.setting.workingDirectory]
    exact (FileTree.walk_congr fun k mem => same (avoids k mem)).trans walked
  · rwa [FileTree.isDirectory_eq_of_shapeAt (same (by simp))]

/-- Handing over changes no content. -/
theorem content_handOverAt (h : Host) (l k : Location) (uid gid : UInt32) :
    ((h.handOverAt l uid gid).tree.get? k).map (·.content) = (h.tree.get? k).map (·.content) := by
  unfold handOverAt
  split
  case h_2 => rfl
  case h_1 =>
  split
  case isFalse => rfl
  case isTrue =>
  rw [FileTree.get?_setOwner]
  split
  case isTrue same => simp [same, Function.comp_def]
  case isFalse => rfl

theorem loadDocument_of_resolve (resolved : h.resolve p = .ok l)
    (content : (h.tree.get? l).map (·.content) = some (.file bytes)) :
    h.loadDocument p = (Json.parse bytes).mapError fun f => .parse p (.content (.fault f)) := by
  obtain ⟨e, found, file⟩ := Option.map_eq_some_iff.mp content
  have opened : h.openForReading p = .ok (.file bytes) := by
    rw [openForReading, entryAt, resolved]
    simp only [found, file]
  rw [loadDocument, opened]
  rfl

end Host

namespace Spec

open Host Json

variable {s : Spec} {h h₀ : Host} {p p₀ : Path} {j : Json} {uid gid : UInt32}

/-- Saving along a straight path in one formula: a file is put at the end of the path,
which still is the end then, and handed over there. -/
theorem save_eq_handOverAt (saved : (s.save h p uid gid).1 = .ok ()) (straight : h.Straight p) :
    ∃ dir n h₁, h.EndsWith p dir n ∧ h₁.EndsWith p dir n ∧ p.hasTrailingSeparator = false ∧
      h.Holds h₁ (dir ++ [n]) s.fileEntry ∧
      (s.save h p uid gid).2 = h₁.handOverAt (dir ++ [n]) uid gid := by
  obtain ⟨dir, n, h₁, ends, trailing, plain, holds, result⟩ := save_eq_ok saved
  have ends₁ := ends.of_holds straight plain holds
  have shape : h₁.tree.shapeAt (dir ++ [n]) = some .other := by
    rw [FileTree.shapeAt, holds.get?, if_pos rfl]
    rfl
  have resolved : h₁.resolve p = .ok (dir ++ [n]) := ends₁.resolve shape (by simp) (by simp [trailing])
  have file : h₁.tree.isDirectory (dir ++ [n]) = false := by
    rw [Bool.eq_false_iff, ne_eq, FileTree.isDirectory_iff, shape]
    simp
  rw [tryChangeOwner_eq resolved, ownerLocation_of_not_isDirectory file] at result
  exact ⟨dir, n, h₁, ends, ends₁, trailing, holds, result⟩

/-- The text of a specification stands where a straight path points once it is saved. -/
theorem resolve_of_save (saved : (s.save h p uid gid).1 = .ok ()) (straight : h.Straight p) :
    ∃ l, (s.save h p uid gid).2.resolve p = .ok l ∧
      ((s.save h p uid gid).2.tree.get? l).map (·.content) =
        some (.file (Utf8.encode s.toJson.pretty.toList)) := by
  obtain ⟨dir, n, h₁, -, ends, trailing, holds, result⟩ := save_eq_handOverAt saved straight
  have found : h₁.tree.get? (dir ++ [n]) = some s.fileEntry := by rw [holds.get?, if_pos rfl]
  have shape : h₁.tree.shapeAt (dir ++ [n]) = some .other := by
    rw [FileTree.shapeAt, found]
    rfl
  rw [result]
  refine ⟨dir ++ [n], ?_, ?_⟩
  · refine resolve_of_keeps (fun k c there => ?_) ?_ (ends.resolve shape (by simp) (by simp [trailing]))
    · rw [shapeAt_handOverAt]
      exact there
    · exact (handOverAt_agreeOn h₁ _ uid gid).setting.workingDirectory
  · rw [content_handOverAt, found]
    rfl

/-- What steps make of a template that was loaded can be read back. -/
theorem readable_of_loaded (loaded : h₀.loadDocument p₀ = .ok j) (whole : j.Integral)
    (template : ofTemplate j = .ok s) (steps : List Step) :
    Readable depthLimit (s.runEach steps).2.toJson := by
  obtain ⟨sorted, shallow⟩ := loadDocument_eq_ok loaded
  have same : s.toJson = j := by
    cases j with
    | obj ms => cases template; rfl
    | null | bool | num | str | arr => cases template
  exact readable_runEach steps (same ▸ ⟨sorted, whole, shallow⟩)

/-- What is saved is found again. Whatever steps are run on a template that was loaded,
the document is not too deep to be read; and once it is saved to a path that does not lead
through a link at its own end, it is the document that is found there. -/
theorem saved_document_reloads (loaded : h₀.loadDocument p₀ = .ok j) (whole : j.Integral)
    (template : ofTemplate j = .ok s) (steps : List Step) (h : Host) (p : Path) (uid gid : UInt32) :
    let t := (s.runEach steps).2
    t.toJson.depth ≤ depthLimit ∧
      ((t.save h p uid gid).1 = .ok () → h.Straight p →
        (t.save h p uid gid).2.loadDocument p = .ok t.toJson) := by
  intro t
  have readable : Readable depthLimit t.toJson := readable_of_loaded loaded whole template steps
  refine ⟨readable.shallow, ?_⟩
  intro saved straight
  obtain ⟨l, resolved, content⟩ := resolve_of_save saved straight
  rw [loadDocument_of_resolve resolved content, parse_pretty readable.sorted readable.integral readable.shallow]
  rfl

theorem saved_document_reloads_sample :
    let h := Sample.host []
    let p : Path := .ofString "/instances/config.json"
    let t := (runEach ⟨[]⟩ [.pushArg "a\n\x22b", .setMemoryLimit 1024, .addCapability "CAP_KILL"]).2
    h.loadDocument Sample.config.baseTemplate = .ok (.obj []) ∧
      t.toJson = .obj [("linux", .obj [("capabilities", .strings ["CAP_KILL"]),
          ("resources", .obj [("memory", .obj [("limit", .nat 1024)])])]),
        ("process", .obj [("args", .strings ["a\n\x22b"])])] ∧
      t.toJson.depth ≤ depthLimit ∧ (t.save h p 1000 1000).1 = .ok () ∧ h.Straight p ∧
      (t.save h p 1000 1000).2.loadDocument p = .ok t.toJson := by
  intro h p t
  have loaded : h.loadDocument Sample.config.baseTemplate = .ok (.obj []) := by decide +kernel
  have whole : (Json.obj []).Integral := integral_obj.mpr (List.forall_mem_nil _)
  have saved : (t.save h p 1000 1000).1 = .ok () := by decide +kernel
  have straight : h.Straight p := by
    intro dir n target _ link
    exact absurd link (FileTree.shapeAt_ne_link (by decide +kernel) _ target)
  obtain ⟨shallow, found⟩ := saved_document_reloads loaded whole rfl
    [.pushArg "a\n\x22b", .setMemoryLimit 1024, .addCapability "CAP_KILL"] h p 1000 1000
  exact ⟨loaded, by decide +kernel, shallow, saved, straight, found saved straight⟩

/-- A path that leads through a link at its own end is lost when something is saved to it:
the link has become the file. -/
theorem saved_document_lost :
    let h := Sample.host [([Sample.name "s"], ⟨.link (.ofString "."), .root, 0o777⟩)]
    let p : Path := .ofString "/s/s"
    h.loadDocument Sample.config.baseTemplate = .ok (.obj []) ∧ (Json.obj []).Integral ∧
      ofTemplate (.obj []) = .ok ⟨[]⟩ ∧ (save (runEach ⟨[]⟩ []).2 h p 0 0).1 = .ok () ∧
      (save (runEach ⟨[]⟩ []).2 h p 0 0).2.loadDocument p = .error (.io p (.system .notDirectory)) := by
  intro h p
  exact ⟨by decide +kernel, integral_obj.mpr (List.forall_mem_nil _), rfl, by decide +kernel, by decide +kernel⟩

end Spec

end Sandbox
