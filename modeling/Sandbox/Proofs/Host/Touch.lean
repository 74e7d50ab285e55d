import Sandbox.Proofs.Host.Leads
import Sandbox.Proofs.Path.Parent

/-!
Where directories are made and handed over.

Making directories does two things to a file tree: a new directory comes where nothing
stood, and a directory gets another owner. `Touches` says at which places each of the
two may have happened. For directories below a base these are the places that names
denote (`createDirectories_touches`), whatever links there are: new directories come on
the way to the base and along the names below it, and owners change along the names
below it.
-/

namespace Sandbox

open Sandbox.Path

namespace FileTree

variable {t t' t'' : FileTree} {l k m : Location} {ss ts : List Name}

/-- What names denote is what their second part denotes from where the first leads. -/
theorem denotes_append_iff : t.Denotes l (ss ++ ts) m ↔ ∃ k, t.Denotes l ss k ∧ t.Denotes k ts m := by
  constructor
  · intro whole
    generalize both : ss ++ ts = us at whole
    induction whole generalizing ss with
    | here l =>
        obtain ⟨rfl, rfl⟩ := List.append_eq_nil_iff.mp both
        exact ⟨l, .here l, .here l⟩
    | @stay l m us whole ih =>
        cases ss with
        | nil => cases (show ts = _ from both); exact ⟨l, .here l, .stay whole⟩
        | cons s ss =>
            cases both
            obtain ⟨k, first, second⟩ := ih rfl
            exact ⟨k, .stay first, second⟩
    | @up l m us whole ih =>
        cases ss with
        | nil => cases (show ts = _ from both); exact ⟨l, .here l, .up whole⟩
        | cons s ss =>
            cases both
            obtain ⟨k, first, second⟩ := ih rfl
            exact ⟨k, .up first, second⟩
    | @down l m s us notDot notDotDot plain whole ih =>
        cases ss with
        | nil => cases (show ts = _ from both); exact ⟨l, .here l, .down notDot notDotDot plain whole⟩
        | cons s ss =>
            cases both
            obtain ⟨k, first, second⟩ := ih rfl
            exact ⟨k, .down notDot notDotDot plain first, second⟩
    | @link l m s us target notDot notDotDot found whole ih =>
        cases ss with
        | nil => cases (show ts = _ from both); exact ⟨l, .here l, .link notDot notDotDot found whole⟩
        | cons s ss =>
            cases both
            obtain ⟨k, first, second⟩ := ih (List.append_assoc ..)
            exact ⟨k, .link notDot notDotDot found first, second⟩
  · rintro ⟨k, first, second⟩
    induction first with
    | here l => exact second
    | stay _ ih => exact .stay (ih second)
    | up _ ih => exact .up (ih second)
    | down notDot notDotDot plain _ ih => exact .down notDot notDotDot plain (ih second)
    | link notDot notDotDot found _ ih =>
        exact .link notDot notDotDot found (List.append_assoc .. ▸ ih second)

theorem SameLinks.denotes_iff (links : SameLinks t t') : t'.Denotes l ss m ↔ t.Denotes l ss m := by
  constructor
  · exact Denotes.congr fun l target => (links l target).symm
  · exact Denotes.congr links

/-! ### What is touched -/

/-- What may become of what stands at a place, if a directory may be made there and if
a directory may be handed over there. -/
inductive Touched (mayMake mayOwn : Prop) : Option Entry → Option Entry → Prop
  | same (e : Option Entry) : Touched mayMake mayOwn e e
  | made : mayMake → Touched mayMake mayOwn none (some .newDirectory)
  | owned {e : Entry} (owner : Owner) : mayOwn → e.isDirectory = true →
      Touched mayMake mayOwn (some e) (some { e with owner })
  | madeOwned (owner : Owner) : mayMake → mayOwn →
      Touched mayMake mayOwn none (some { Entry.newDirectory with owner })

/-- The trees differ at most in new directories, at places of one kind, and in owners of
directories, at places of another. -/
def Touches (t : FileTree) (M O : Location → Prop) (t' : FileTree) : Prop :=
  ∀ k, Touched (M k) (O k) (t.get? k) (t'.get? k)

namespace Touches

variable {M M' O O' : Location → Prop}

theorem refl (t : FileTree) : t.Touches M O t :=
  fun _ => .same _

theorem trans (h : t.Touches M O t') (h' : t'.Touches M O t'') : t.Touches M O t'' := by
  intro k
  have first := h k
  have second := h' k
  generalize t.get? k = before at first ⊢
  generalize t'.get? k = between at first second
  generalize t''.get? k = after at second ⊢
  cases first with
  | same => exact second
  | made may =>
      cases second with
      | same => exact .made may
      | owned owner own _ => exact .madeOwned owner may own
  | owned _ own directory =>
      cases second with
      | same => exact .owned _ own directory
      | owned owner _ _ => exact .owned owner own directory
  | madeOwned _ may own =>
      cases second with
      | same => exact .madeOwned _ may own
      | owned owner _ _ => exact .madeOwned owner may own

theorem mono (h : t.Touches M O t') (made : ∀ k, M k → M' k) (owned : ∀ k, O k → O' k) :
    t.Touches M' O' t' := by
  intro k
  have touched := h k
  generalize t.get? k = before at touched ⊢
  generalize t'.get? k = after at touched ⊢
  cases touched with
  | same => exact .same _
  | made may => exact .made (made k may)
  | owned owner own directory => exact .owned owner (owned k own) directory
  | madeOwned owner may own => exact .madeOwned owner (made k may) (owned k own)

theorem insert (absent : t.get? l = none) (may : M l) : t.Touches M O (t.insert l .newDirectory) := by
  intro k
  rw [get?_insert]
  split
  · next here => rw [here, absent]; exact .made may
  · exact .same _

theorem setOwner (directory : t.isDirectory l = true) (own : O l) (owner : Owner) :
    t.Touches M O (t.setOwner l owner) := by
  intro k
  rw [get?_setOwner]
  split
  · next here =>
      subst here
      cases found : t.get? k with
      | none => exact .same _
      | some e =>
          rw [isDirectory_of_get? found] at directory
          exact .owned owner own directory
  · exact .same _

theorem onlyDirectories (h : t.Touches M O t') : OnlyDirectories t t' := by
  intro k
  have touched := h k
  cases before : t.get? k with
  | none =>
      rw [before] at touched
      cases after : t'.get? k with
      | none => exact .inl rfl
      | some e =>
          rw [after] at touched
          refine .inr ⟨?_, .inl rfl⟩
          rw [isDirectory_of_get? after]
          cases touched <;> rfl
  | some e =>
      rw [before] at touched
      cases after : t'.get? k with
      | none => rw [after] at touched; cases touched
      | some e' =>
          rw [after] at touched
          rw [isDirectory_of_get? before, isDirectory_of_get? after]
          cases touched with
          | same => exact .inl rfl
          | owned _ _ directory => exact .inr ⟨directory, .inr directory⟩

/-- Where nothing is handed over and nothing is new, everything stays as it is. -/
theorem get?_eq (h : t.Touches M O t') (noMake : t.get? k = none → ¬ M k) (noOwn : ¬ O k) :
    t'.get? k = t.get? k := by
  have touched := h k
  generalize t.get? k = before at touched noMake ⊢
  generalize t'.get? k = after at touched ⊢
  cases touched with
  | same => rfl
  | made may | madeOwned _ may => exact absurd may (noMake rfl)
  | owned _ own => exact absurd own noOwn

end Touches

end FileTree

namespace Host

variable {h h' h'' : Host} {p q dir base : Path} {l k : Location} {n : Name} {ns : List Name}
variable {M M' O O' : Location → Prop}

/-! ### What paths denote -/

/-- A path denotes a place, be it there or not. -/
def Denotes (h : Host) (p : Path) (l : Location) : Prop :=
  h.tree.Denotes (p.origin h.workingDirectory) p.names l

/-- A place is denoted by a path or by the first names of one. -/
def OnWay (h : Host) (p : Path) (k : Location) : Prop :=
  ∃ ns, ns <+: p.names ∧ h.tree.Denotes (p.origin h.workingDirectory) ns k

/-- A place is denoted by a path and some names below it, at least one. -/
def Passes (h : Host) (base : Path) (ns : List Name) (k : Location) : Prop :=
  ∃ ms, ms ≠ [] ∧ ms <+: ns ∧ h.tree.Denotes (base.origin h.workingDirectory) (base.names ++ ms) k

theorem denotes_of_resolve (ok : h.resolve p = .ok l) : h.Denotes p l := by
  have walked := FileTree.Denotes.of_walk (resolve_eq_ok_iff.mp ok).2
  change h.tree.Denotes _ (if p.hasTrailingSeparator then p.names ++ [dot] else p.names) _ at walked
  split at walked
  case isFalse => exact walked
  case isTrue =>
  -- A separator at the end leads nowhere else.
  obtain ⟨k, named, last⟩ := FileTree.denotes_append_iff.mp walked
  cases last with
  | stay here => cases here; exact named
  | down notDot => exact absurd rfl notDot
  | link notDot => exact absurd rfl notDot

theorem EndsWith.denotes (ends : h.EndsWith p l n)
    (noLink : ∀ target, h.tree.shapeAt (l ++ [n]) ≠ some (.link target)) : h.Denotes p (l ++ [n]) := by
  obtain ⟨-, ⟨ns, names, walked⟩, -, notDot, notDotDot, -⟩ := ends
  unfold Denotes
  rw [names]
  exact FileTree.denotes_append_iff.mpr
    ⟨l, .of_walk walked, .down notDot notDotDot noLink (.here _)⟩

theorem OnWay.of_above (above : q.Above p) (denotes : h.Denotes q k) : h.OnWay p k :=
  ⟨q.names, above.names, above.origin_eq h.workingDirectory ▸ denotes⟩

/-- On the way along a single name are its start and what it denotes. -/
theorem OnWay.of_names_singleton (onWay : h.OnWay p k) (names : p.names = [n]) :
    k = p.origin h.workingDirectory ∨ h.Denotes p k := by
  obtain ⟨ns, first, denotes⟩ := onWay
  rw [names] at first
  rcases List.prefix_cons_iff.mp first with rfl | ⟨ms, rfl, rest⟩
  · cases denotes
    exact .inl rfl
  · cases List.prefix_nil.mp rest
    exact .inr (by rw [Denotes, names]; exact denotes)

theorem passes_child (ordinary : Ordinary n) (denotes : h.Denotes (dir.child n) k) :
    h.Passes dir (n :: ns) k := by
  unfold Denotes at denotes
  rw [names_child dir ordinary, origin_child dir ordinary] at denotes
  exact ⟨[n], List.cons_ne_nil _ _, List.prefix_append [n] ns, denotes⟩

theorem Passes.of_child (ordinary : Ordinary n) (passes : h.Passes (dir.child n) ns k) :
    h.Passes dir (n :: ns) k := by
  obtain ⟨ms, -, taken, denotes⟩ := passes
  rw [names_child dir ordinary, origin_child dir ordinary, List.append_assoc] at denotes
  exact ⟨n :: ms, List.cons_ne_nil _ _, List.prefix_cons_inj n |>.mpr taken, denotes⟩

namespace OnlyDirectories

variable (only : h.OnlyDirectories h')

include only

/-- New directories change nothing of what names denote. -/
theorem denotes_iff : h'.Denotes p k ↔ h.Denotes p k := by
  unfold Denotes
  rw [only.setting.workingDirectory, only.tree.sameLinks.denotes_iff]

theorem passes_iff : h'.Passes base ns k ↔ h.Passes base ns k := by
  unfold Passes
  simp only [only.setting.workingDirectory, only.tree.sameLinks.denotes_iff]

end OnlyDirectories

/-- The owner of a place is kept there, or on the writable layer of an overlay that is
mounted there. -/
def OwnerAt (h : Host) (l k : Location) : Prop :=
  k = l ∨ ∃ m ∈ h.mounts, m.point = l ∧ m.upper = k

theorem ownerAt_ownerLocation (h : Host) (l : Location) : h.OwnerAt l (h.ownerLocation l) := by
  unfold ownerLocation
  split
  · next m found =>
      split
      · exact .inr ⟨m, List.mem_of_find?_eq_some found, by simpa using List.find?_some found, rfl⟩
      · exact .inl rfl
  · exact .inl rfl

theorem SameSetting.ownerAt_iff (setting : h.SameSetting h') : h'.OwnerAt l k ↔ h.OwnerAt l k := by
  unfold OwnerAt
  rw [setting.mounts]

/-! ### What operations touch -/

/-- The hosts differ at most in new directories, at places of one kind, and in owners of
directories, at places of another. -/
structure Touches (h : Host) (M O : Location → Prop) (h' : Host) : Prop where
  tree : h.tree.Touches M O h'.tree
  setting : h.SameSetting h'

namespace Touches

theorem refl (h : Host) : h.Touches M O h :=
  ⟨.refl _, .refl h⟩

theorem trans (t : h.Touches M O h') (t' : h'.Touches M O h'') : h.Touches M O h'' :=
  ⟨t.tree.trans t'.tree, t.setting.trans t'.setting⟩

theorem mono (t : h.Touches M O h') (made : ∀ k, M k → M' k) (owned : ∀ k, O k → O' k) :
    h.Touches M' O' h' :=
  ⟨t.tree.mono made owned, t.setting⟩

theorem onlyDirectories (t : h.Touches M O h') : h.OnlyDirectories h' :=
  ⟨t.tree.onlyDirectories, t.setting⟩

end Touches

theorem touches_of_ensureDirectory (ok : h.ensureDirectory p = .ok h') (may : ∀ k, h.Denotes p k → M k) :
    h.Touches M O h' := by
  rcases ensureDirectory_cases ok with made | ⟨rfl, -⟩
  · obtain ⟨dir, n, ends, absent, rfl⟩ := makeDirectory_eq_ok_iff.mp made
    have denotes := ends.denotes fun target => by simp [FileTree.shapeAt, absent]
    exact ⟨.insert absent (may _ denotes), ⟨rfl, rfl, rfl⟩⟩
  · exact .refl h'

theorem tryChangeOwner_touches (is : h.isDirectory p = true)
    (own : ∀ l k, h.Denotes p l → h.OwnerAt l k → O k) (uid gid : UInt32) :
    h.Touches M O (h.tryChangeOwner p uid gid) := by
  obtain ⟨l, resolved, directory⟩ := isDirectory_iff.mp is
  rw [tryChangeOwner_eq resolved]
  unfold handOverAt
  split
  case h_2 => exact .refl h
  case h_1 =>
  split
  case isFalse => exact .refl h
  case isTrue =>
  have here := own l _ (denotes_of_resolve resolved) (ownerAt_ownerLocation h l)
  exact ⟨.setOwner (isDirectory_ownerLocation directory) here _, ⟨rfl, rfl, rfl⟩⟩

theorem ensureEach_touches {ps : List Path} (may : ∀ q ∈ ps, ∀ k, h.Denotes q k → M k) :
    h.Touches M O (h.ensureEach ps).2 := by
  induction ps generalizing h with
  | nil => exact .refl h
  | cons p ps ih =>
      rw [ensureEach]
      split
      · next h' ok =>
          have first : h.Touches M O h' := touches_of_ensureDirectory ok (may p List.mem_cons_self)
          refine first.trans (ih fun q mem k denotes => may q (List.mem_cons_of_mem p mem) k ?_)
          exact first.onlyDirectories.denotes_iff.mp denotes
      · exact .refl h

theorem missingAncestors_subset (h : Host) (ps : List Path) : (h.missingAncestors ps).1 ⊆ ps := by
  induction ps with
  | nil => exact List.Subset.refl []
  | cons p ps ih =>
      rw [missingAncestors]
      split
      · exact List.nil_subset _
      · split
        · exact List.cons_subset_cons p ih
        · exact List.nil_subset _

theorem touches_of_missingAncestors {ps : List Path} (ok : (h.missingAncestors ps).2 = .ok h')
    (may : ∀ q ∈ ps, ∀ k, h.Denotes q k → M k) : h.Touches M O h' := by
  induction ps with
  | nil => cases ok; exact .refl h
  | cons p ps ih =>
      rw [missingAncestors] at ok
      split at ok
      · next made => cases ok; exact touches_of_ensureDirectory made (may p List.mem_cons_self)
      · split at ok
        · exact ih ok fun q mem => may q (List.mem_cons_of_mem p mem)
        · cases ok

/-- A directory and what is missing above it are made on the way along its path, and
none of them is handed over. -/
theorem makeDirectories_touches (h : Host) (p : Path) :
    h.Touches (h.OnWay p) O (h.makeDirectories p).2 := by
  have onWay : ∀ q ∈ p.ancestors, ∀ k, h.Denotes q k → h.OnWay p k := fun q mem k =>
    OnWay.of_above (.of_mem_ancestors mem)
  unfold makeDirectories
  cases outcome : (h.missingAncestors p.ancestors).2 with
  | error e => simpa only [outcome] using Touches.refl h
  | ok h' =>
      simp only [outcome]
      have first : h.Touches (h.OnWay p) O h' := touches_of_missingAncestors outcome onWay
      refine first.trans (ensureEach_touches fun q mem k denotes => ?_)
      have tried := missingAncestors_subset h p.ancestors (List.mem_reverse.mp mem)
      exact onWay q tried k (first.onlyDirectories.denotes_iff.mp denotes)

end Host

open Host

variable {h h' : Host} {p dir base : Path} {n : Name} {ns : List Name} {M O : Location → Prop}

theorem touches_of_ensureOwnedDirectory {owner : Option Owner} (ok : ensureOwnedDirectory h p owner = .ok h')
    (may : ∀ k, h.Denotes p k → M k) (own : ∀ l k, h.Denotes p l → h.OwnerAt l k → O k) :
    h.Touches M O h' := by
  unfold ensureOwnedDirectory at ok
  split at ok
  · cases ok
  · next h₁ made =>
      have first : h.Touches M O h₁ := touches_of_ensureDirectory made may
      cases owner with
      | none => cases ok; exact first
      | some o =>
          cases ok
          refine first.trans (tryChangeOwner_touches (isDirectory_of_ensureDirectory made) ?_ _ _)
          intro l k denotes kept
          exact own l k (first.onlyDirectories.denotes_iff.mp denotes) (first.setting.ownerAt_iff.mp kept)

/-- Directories one below the other are made and handed over along their names. -/
theorem ensureChain_touches (owner : Option Owner) (h : Host) (dir : Path)
    (ordinary : ∀ n ∈ ns, Ordinary n) :
    h.Touches (h.Passes dir ns) (fun k => ∃ l, h.Passes dir ns l ∧ h.OwnerAt l k)
      (ensureChain owner h dir ns).2 := by
  induction ns generalizing h dir with
  | nil => exact .refl h
  | cons n ns ih =>
      have here := ordinary n List.mem_cons_self
      rw [ensureChain]
      split
      · exact .refl h
      · next h' ok =>
          have first : h.Touches (h.Passes dir (n :: ns))
              (fun k => ∃ l, h.Passes dir (n :: ns) l ∧ h.OwnerAt l k) h' :=
            touches_of_ensureOwnedDirectory ok (fun k => passes_child here)
              fun l k denotes kept => ⟨l, passes_child here denotes, kept⟩
          have only := first.onlyDirectories
          have rest := ih h' (dir.child n) fun m mem => ordinary m (List.mem_cons_of_mem n mem)
          refine first.trans (rest.mono (fun k passes => ?_) ?_)
          · exact (only.passes_iff.mp passes).of_child here
          · rintro k ⟨l, passes, kept⟩
            exact ⟨l, (only.passes_iff.mp passes).of_child here, first.setting.ownerAt_iff.mp kept⟩

/-- Directories from below a base to a path are made on the way to the base and along
the names below it, and handed over along those alone. This holds of every host and
whether it succeeds or not. -/
theorem createDirectories_touches (below : segmentsBelow base p = .ok ns) (h : Host) (uid gid : UInt32) :
    h.Touches (fun k => h.OnWay base k ∨ h.Passes base ns k)
      (fun k => ∃ l, h.Passes base ns l ∧ h.OwnerAt l k) (createDirectories h base p uid gid).2 := by
  have ordinary := ordinary_of_segmentsBelow below
  rw [createDirectories, below]
  dsimp only
  have above : h.Touches (fun k => h.OnWay base k ∨ h.Passes base ns k)
      (fun k => ∃ l, h.Passes base ns l ∧ h.OwnerAt l k) (h.makeDirectories base).2 :=
    (makeDirectories_touches (O := fun _ => False) h base).mono (fun k => .inl) (fun k => False.elim)
  split
  · next h' made => rw [made] at above; exact above
  · next h' made =>
      rw [made] at above
      have only := above.onlyDirectories
      refine above.trans ((ensureChain_touches (newOwner uid gid) h' base ordinary).mono ?_ ?_)
      · intro k passes
        exact .inr (only.passes_iff.mp passes)
      · rintro k ⟨l, passes, kept⟩
        exact ⟨l, only.passes_iff.mp passes, above.setting.ownerAt_iff.mp kept⟩

end Sandbox
