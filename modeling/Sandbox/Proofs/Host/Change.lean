import Sandbox.Host.Basic
import Sandbox.Proofs.Host.Walk

/-!
What the operations on a host change.

Making directories and handing them over changes directories only
(`OnlyDirectories`): every other entry stays exactly as it is (`SameFiles`), no
link comes or goes, and whatever a walk could see before it sees afterwards. The
relation is kept along any number of operations.
-/

namespace Sandbox

namespace FileTree

variable {t t' t'' : FileTree} {l k : Location} {e : Entry}

theorem get?_insert (t : FileTree) (l k : Location) (e : Entry) :
    (t.insert l e).get? k = if k = l then some e else t.get? k := by
  split
  · next same => rw [same, get?_insert_self]
  · next ne => exact get?_insert_of_ne t e ne

theorem get?_setOwner (t : FileTree) (l k : Location) (owner : Owner) :
    (t.setOwner l owner).get? k = if k = l then (t.get? l).map ({ · with owner }) else t.get? k := by
  unfold setOwner
  cases found : t.get? l with
  | none =>
      by_cases same : k = l
      · rw [if_pos same, same, found, Option.map_none]
      · rw [if_neg same]
  | some e => exact get?_insert t l k _

/-- An owner is nothing that a walk sees. -/
@[simp] theorem shapeAt_setOwner (t : FileTree) (l k : Location) (owner : Owner) :
    (t.setOwner l owner).shapeAt k = t.shapeAt k := by
  unfold shapeAt
  rw [get?_setOwner]
  split
  · next same => rw [same, Option.map_map]; rfl
  · rfl

theorem isDirectory_eq_of_shapeAt (same : t'.shapeAt l = t.shapeAt l) :
    t'.isDirectory l = t.isDirectory l :=
  Bool.eq_iff_iff.mpr (by rw [isDirectory_iff, isDirectory_iff, same])

theorem isDirectory_of_get? (found : t.get? l = some e) : t.isDirectory l = e.isDirectory := by
  simp [isDirectory, found]

/-- Whatever a walk can see in the first tree it sees in the second. -/
def Keeps (t t' : FileTree) : Prop :=
  ∀ l c, t.shapeAt l = some c → t'.shapeAt l = some c

/-- The trees differ only where the second has a directory and the first has one or
nothing. -/
def OnlyDirectories (t t' : FileTree) : Prop :=
  ∀ l, t'.get? l = t.get? l ∨
    t'.isDirectory l = true ∧ (t.get? l = none ∨ t.isDirectory l = true)

namespace OnlyDirectories

theorem refl (t : FileTree) : OnlyDirectories t t :=
  fun _ => .inl rfl

theorem trans (h : OnlyDirectories t t') (h' : OnlyDirectories t' t'') : OnlyDirectories t t'' := by
  intro l
  have directory {a b : FileTree} (eq : b.get? l = a.get? l) : b.isDirectory l = a.isDirectory l := by
    rw [isDirectory, isDirectory, eq]
  rcases h l with same | ⟨dir, before⟩
  · rcases h' l with same' | ⟨dir', before'⟩
    · exact .inl (same'.trans same)
    · exact .inr ⟨dir', by rwa [same, directory same] at before'⟩
  · refine .inr ⟨?_, before⟩
    rcases h' l with same' | ⟨dir', _⟩
    · rw [directory same', dir]
    · exact dir'

theorem keeps (h : OnlyDirectories t t') : Keeps t t' := by
  intro l c found
  rcases h l with same | ⟨dir, absent | was⟩
  · rw [shapeAt, same]; exact found
  · rw [shapeAt, absent] at found; cases found
  · rw [isDirectory_iff] at dir was
    rw [dir, ← was, found]

theorem sameLinks (h : OnlyDirectories t t') : SameLinks t t' := by
  intro l target
  constructor
  · intro found
    rcases h l with same | ⟨dir, _⟩
    · rwa [shapeAt, same] at found
    · rw [isDirectory_iff.mp dir] at found; cases found
  · exact h.keeps _ _

theorem isDirectory (h : OnlyDirectories t t') (dir : t.isDirectory l = true) :
    t'.isDirectory l = true :=
  isDirectory_iff.mpr (h.keeps _ _ (isDirectory_iff.mp dir))

theorem insert (absent : t.get? l = none) (dir : e.isDirectory = true) :
    OnlyDirectories t (t.insert l e) := by
  intro k
  by_cases same : k = l
  · subst same
    exact .inr ⟨by simp [FileTree.isDirectory, dir], .inl absent⟩
  · exact .inl (get?_insert_of_ne t e same)

theorem setOwner (dir : t.isDirectory l = true) (owner : Owner) :
    OnlyDirectories t (t.setOwner l owner) := by
  intro k
  by_cases same : k = l
  · subst same
    refine .inr ⟨?_, .inr dir⟩
    rw [isDirectory_eq_of_shapeAt (shapeAt_setOwner t k k owner), dir]
  · exact .inl (by rw [get?_setOwner, if_neg same])

end OnlyDirectories

end FileTree

/-- A path that the system takes: its bytes hold no zero, and there are neither none
nor too many of them. -/
structure Path.Accepted (p : Path) : Prop where
  noZeroByte : p.hasZeroByte = false
  ne_nil : p.bytes ≠ []
  short : p.bytes.length ≤ maxPathLength

namespace Host

variable {h h' h'' : Host} {p : Path} {l dir : Location} {n : Name}

/-! ### Looking -/

theorem resolve_eq_ok_iff :
    h.resolve p = .ok l ↔
      p.Accepted ∧ h.tree.walk maxLinks (p.origin h.workingDirectory) p.steps = .ok l := by
  unfold resolve FileTree.resolve
  constructor
  · intro ok
    split at ok
    case isTrue => cases ok
    case isFalse zero =>
    split at ok
    case isTrue => cases ok
    case isFalse empty =>
    split at ok
    case isTrue => cases ok
    case isFalse long =>
    refine ⟨⟨by simpa using zero, empty, Nat.not_lt.mp long⟩, ?_⟩
    cases walked : h.tree.walk maxLinks (p.origin h.workingDirectory) p.steps with
    | error e => rw [walked] at ok; cases ok
    | ok m => rw [walked] at ok; cases ok; rfl
  · rintro ⟨⟨zero, nonempty, short⟩, walked⟩
    rw [if_neg (by simp [zero]), if_neg nonempty, if_neg (Nat.not_lt.mpr short), walked]
    rfl

theorem isDirectory_iff :
    h.isDirectory p = true ↔ ∃ l, h.resolve p = .ok l ∧ h.tree.isDirectory l = true := by
  unfold isDirectory
  cases h.resolve p with
  | error e => simp
  | ok l => simp

/-- The end of a path that the system takes and that has a last segment. -/
theorem lastStep_of_names {ns : List Name} (accepted : p.Accepted) (names : p.names = ns ++ [n]) :
    h.lastStep p =
      match h.tree.walk maxLinks (p.origin h.workingDirectory) ns with
      | .error e => .error (.system e)
      | .ok dir =>
        if h.tree.isDirectory dir = false then .error (.system .notDirectory)
        else if n = Path.dot ∨ n = Path.dotDot then .ok .special
        else if maxNameLength < n.length then .error (.system .nameTooLong)
        else .ok (.name dir n p.hasTrailingSeparator) := by
  obtain ⟨zero, nonempty, short⟩ := accepted
  unfold Path.names at names
  rw [lastStep, if_neg (by simp [zero]), FileTree.lastStep, if_neg nonempty, if_neg (Nat.not_lt.mpr short)]
  simp only [names, List.getLast?_concat, List.dropLast_concat]
  cases h.tree.walk maxLinks (p.origin h.workingDirectory) ns with
  | error e => rfl
  | ok dir =>
      simp only [Bool.not_eq_true']
      split
      · rfl
      · split
        · rfl
        · split <;> rfl

theorem lastStep_of_names_nil (accepted : p.Accepted) (names : p.names = []) :
    h.lastStep p = .ok .special := by
  obtain ⟨zero, nonempty, short⟩ := accepted
  unfold Path.names at names
  rw [lastStep, if_neg (by simp [zero]), FileTree.lastStep, if_neg nonempty, if_neg (Nat.not_lt.mpr short)]
  simp only [names]
  rfl

theorem accepted_of_lastStep {r : FileTree.LastStep} (ok : h.lastStep p = .ok r) : p.Accepted := by
  unfold lastStep FileTree.lastStep at ok
  split at ok
  case isTrue => cases ok
  case isFalse zero =>
  split at ok
  case isTrue => cases ok
  case isFalse nonempty =>
  split at ok
  case isTrue => cases ok
  case isFalse long => exact ⟨by simpa using zero, nonempty, Nat.not_lt.mp long⟩

/-- A path ends with a name that is looked up in a directory. -/
structure EndsWith (h : Host) (p : Path) (dir : Location) (n : Name) : Prop where
  accepted : p.Accepted
  names : ∃ ns, p.names = ns ++ [n] ∧
    h.tree.walk maxLinks (p.origin h.workingDirectory) ns = .ok dir
  directory : h.tree.isDirectory dir = true
  ne_dot : n ≠ Path.dot
  ne_dotDot : n ≠ Path.dotDot
  short : n.length ≤ maxNameLength

theorem lastStep_eq_name_iff {demands : Bool} :
    h.lastStep p = .ok (.name dir n demands) ↔
      h.EndsWith p dir n ∧ demands = p.hasTrailingSeparator := by
  constructor
  · intro ok
    have accepted := accepted_of_lastStep ok
    rcases List.eq_nil_or_concat p.names with none | ⟨ns, m, names⟩
    · rw [lastStep_of_names_nil accepted none] at ok
      cases ok
    rw [List.concat_eq_append] at names
    rw [lastStep_of_names accepted names] at ok
    split at ok
    case h_1 => cases ok
    case h_2 l walked =>
    split at ok
    case isTrue => cases ok
    case isFalse directory =>
    split at ok
    case isTrue => cases ok
    case isFalse ordinary =>
    split at ok
    case isTrue => cases ok
    case isFalse short =>
    cases ok
    exact ⟨⟨accepted, ⟨ns, names, walked⟩, by simpa using directory, fun e => ordinary (.inl e),
      fun e => ordinary (.inr e), Nat.not_lt.mp short⟩, rfl⟩
  · rintro ⟨⟨accepted, ⟨ns, names, walked⟩, directory, notDot, notDotDot, short⟩, rfl⟩
    rw [lastStep_of_names accepted names, walked]
    simp [directory, notDot, notDotDot, Nat.not_lt.mpr short]

/-! ### What is kept -/

/-- The hosts differ in their files alone. -/
structure SameSetting (h h' : Host) : Prop where
  workingDirectory : h'.workingDirectory = h.workingDirectory
  mounts : h'.mounts = h.mounts
  privileges : h'.privileges = h.privileges

theorem SameSetting.refl (h : Host) : SameSetting h h :=
  ⟨rfl, rfl, rfl⟩

theorem SameSetting.symm (s : SameSetting h h') : SameSetting h' h :=
  ⟨s.1.symm, s.2.symm, s.3.symm⟩

theorem SameSetting.trans (s : SameSetting h h') (s' : SameSetting h' h'') : SameSetting h h'' :=
  ⟨s'.1.trans s.1, s'.2.trans s.2, s'.3.trans s.3⟩

/-- A path that leads somewhere leads there still when nothing that was seen is lost. -/
theorem resolve_of_keeps (keeps : h.tree.Keeps h'.tree)
    (dir : h'.workingDirectory = h.workingDirectory) (ok : h.resolve p = .ok l) :
    h'.resolve p = .ok l := by
  obtain ⟨accepted, walked⟩ := resolve_eq_ok_iff.mp ok
  refine resolve_eq_ok_iff.mpr ⟨accepted, ?_⟩
  rw [dir]
  exact FileTree.walk_of_keeps walked fun k _ c => keeps k c

theorem isDirectory_of_keeps (keeps : h.tree.Keeps h'.tree)
    (dir : h'.workingDirectory = h.workingDirectory) (is : h.isDirectory p = true) :
    h'.isDirectory p = true := by
  obtain ⟨l, ok, directory⟩ := isDirectory_iff.mp is
  refine isDirectory_iff.mpr ⟨l, resolve_of_keeps keeps dir ok, ?_⟩
  rw [FileTree.isDirectory_iff] at directory ⊢
  exact keeps l _ directory

theorem EndsWith.of_keeps (ends : h.EndsWith p dir n) (keeps : h.tree.Keeps h'.tree)
    (same : h'.workingDirectory = h.workingDirectory) : h'.EndsWith p dir n := by
  obtain ⟨accepted, ⟨ns, names, walked⟩, directory, notDot, notDotDot, short⟩ := ends
  refine ⟨accepted, ⟨ns, names, ?_⟩, ?_, notDot, notDotDot, short⟩
  · rw [same]
    exact FileTree.walk_of_keeps walked fun k _ c => keeps k c
  · rw [FileTree.isDirectory_iff] at directory ⊢
    exact keeps dir _ directory

/-- A path that ends with a name leads to what has that name, unless that is a link. -/
theorem EndsWith.resolve (ends : h.EndsWith p dir n) {c : Shape}
    (found : h.tree.shapeAt (dir ++ [n]) = some c) (plain : ∀ target, c ≠ .link target)
    (demands : p.hasTrailingSeparator = true → c = .directory) :
    h.resolve p = .ok (dir ++ [n]) := by
  obtain ⟨accepted, ⟨ns, names, walked⟩, directory, notDot, notDotDot, short⟩ := ends
  obtain ⟨left, after⟩ := FileTree.walk_append walked
  have step : h.tree.step dir n = .ok (.place (dir ++ [n])) :=
    FileTree.step_eq_ok_iff.mpr
      ⟨FileTree.isDirectory_iff.mp directory, .down notDot notDotDot short found plain⟩
  refine resolve_eq_ok_iff.mpr ⟨accepted, ?_⟩
  change h.tree.walk _ _ (if p.hasTrailingSeparator then p.names ++ [Path.dot] else p.names) = _
  rw [names]
  split
  · next trailing =>
      have stay : h.tree.step (dir ++ [n]) Path.dot = .ok (.place (dir ++ [n])) :=
        FileTree.step_eq_ok_iff.mpr ⟨demands trailing ▸ found, .stay⟩
      rw [List.append_assoc, (after _).1, List.singleton_append, FileTree.walk_cons_place step,
        FileTree.walk_cons_place stay]
      cases left <;> rfl
  · rw [(after _).1, FileTree.walk_cons_place step]
    cases left <;> rfl

/-- What stands under the last name of a path that leads to a directory is there. -/
theorem lastStep_of_isDirectory (is : h.isDirectory p = true) :
    h.lastStep p = .ok .special ∨
      ∃ dir n demands, h.lastStep p = .ok (.name dir n demands) ∧
        ∃ c, h.tree.shapeAt (dir ++ [n]) = some c := by
  obtain ⟨l, ok, -⟩ := isDirectory_iff.mp is
  obtain ⟨accepted, walked⟩ := resolve_eq_ok_iff.mp ok
  rcases List.eq_nil_or_concat p.names with none | ⟨ns, n, names⟩
  · exact .inl (lastStep_of_names_nil accepted none)
  rw [List.concat_eq_append] at names
  obtain ⟨rest, segments⟩ : ∃ rest, p.steps = ns ++ n :: rest := by
    change ∃ rest, (if p.hasTrailingSeparator then p.names ++ [Path.dot] else p.names) = _
    rw [names]
    split
    · exact ⟨[Path.dot], by simp⟩
    · exact ⟨[], rfl⟩
  rw [segments] at walked
  obtain ⟨dir, before⟩ := FileTree.walk_prefix walked
  obtain ⟨left, after⟩ := FileTree.walk_append before
  obtain ⟨r, step⟩ := FileTree.step_of_walk_cons ((after _).1.symm.trans walked)
  obtain ⟨directory, steps⟩ := FileTree.step_eq_ok_iff.mp step
  rw [lastStep_of_names accepted names, before]
  simp only [FileTree.isDirectory_iff.mpr directory]
  cases steps with
  | stay => exact .inl rfl
  | up => exact .inl rfl
  | down notDot notDotDot short found | link notDot notDotDot short found =>
      refine .inr ⟨dir, n, p.hasTrailingSeparator, ?_, _, found⟩
      simp [notDot, notDotDot, Nat.not_lt.mpr short]

end Host

end Sandbox
