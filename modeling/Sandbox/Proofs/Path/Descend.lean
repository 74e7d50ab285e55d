import Mathlib.Data.List.TakeWhile
import Sandbox.Proofs.Path.Parent

/-!
Paths that go on from a base along names, and what is above a path.

Names are found below a base exactly when the components of a path go on from those of
the base along them (`segmentsBelow_eq_ok_iff`). A path has one component more than its
parent (`components_of_parent?`), and a path that has nothing above it is empty or some way
to write the root (`IsRoot.of_parent?`).
-/

namespace Sandbox.Path

variable {p base : Path} {ns : List Name}

/-- The path that goes on from a path along names. -/
def descend (p : Path) (ns : List Name) : Path :=
  ns.foldl child p

@[simp] theorem descend_nil (p : Path) : p.descend [] = p :=
  rfl

@[simp] theorem descend_cons (p : Path) (n : Name) (ns : List Name) :
    p.descend (n :: ns) = (p.child n).descend ns :=
  rfl

theorem descend_append (p : Path) (ms ns : List Name) : p.descend (ms ++ ns) = (p.descend ms).descend ns :=
  List.foldl_append

theorem components_descend (ordinary : ∀ n ∈ ns, Ordinary n) :
    (p.descend ns).components = p.components ++ ns.map .normal := by
  induction ns generalizing p with
  | nil => exact (List.append_nil _).symm
  | cons n ns ih =>
      obtain ⟨first, rest⟩ := List.forall_mem_cons.mp ordinary
      rw [descend_cons, ih rest, components_child p first, List.append_assoc]
      rfl

theorem map_normal_names {cs : List Component} (normal : cs.all Component.isNormal = true) :
    (cs.filterMap Component.name?).map .normal = cs := by
  induction cs with
  | nil => rfl
  | cons c cs ih =>
      obtain ⟨first, rest⟩ := Bool.and_eq_true_iff.mp normal
      cases c with
      | normal n => exact congrArg (Component.normal n :: ·) (ih rest)
      | root | current | parent => cases first

/-- Names are found below a base exactly when they go on from its components. -/
theorem segmentsBelow_eq_ok_iff :
    segmentsBelow base p = .ok ns ↔ p.components = base.components ++ ns.map .normal := by
  unfold segmentsBelow
  constructor
  · intro ok
    split at ok
    case h_1 => cases ok
    case h_2 cs below =>
    split at ok
    case isFalse => cases ok
    case isTrue normal =>
    cases ok
    rw [stripPrefix?_eq_some_iff.mp below, map_normal_names normal]
  · intro components
    have below : p.below? base = some (ns.map .normal) := stripPrefix?_eq_some_iff.mpr components
    have normal : (ns.map Component.normal).all Component.isNormal = true := by simp [Component.isNormal]
    have names : (ns.map Component.normal).filterMap Component.name? = ns := by
      simp [List.filterMap_map, Function.comp_def, Component.name?]
    simp only [below, if_pos normal, names]

/-! ### The root -/

theorem skipped_of_trimSkipped {ss : List Name} (trimmed : trimSkipped ss = []) : ∀ s ∈ ss, isSkipped s = true := by
  rw [trimSkipped, List.reverse_eq_nil_iff, List.dropWhile_eq_nil_iff] at trimmed
  intro s mem
  exact trimmed s (List.mem_reverse.mpr mem)

/-- What is skipped names nothing. -/
theorem filterMap_of_skipped {ss : List Name} (skipped : ∀ s ∈ ss, isSkipped s = true) :
    ss.filterMap innerComponent? = [] := by
  refine List.filterMap_eq_nil_iff.mpr fun s mem => ?_
  rw [innerComponent?, if_pos (skipped s mem)]

/-- The path is one way to write the root. -/
structure IsRoot (p : Path) : Prop where
  absolute : p.isAbsolute = true
  skipped : ∀ s ∈ split p.bytes, isSkipped s = true

theorem IsRoot.components_eq (root : p.IsRoot) : p.components = [.root] := by
  obtain ⟨absolute, skipped⟩ := root
  unfold components
  cases segments : split p.bytes with
  | nil => exact absurd segments (Separated.split_ne_nil separator p.bytes)
  | cons s ss =>
      rw [segments] at skipped
      have nothing : ss.filterMap innerComponent? = [] :=
        filterMap_of_skipped fun m mem => skipped m (List.mem_cons_of_mem s mem)
      simp [firstComponent?, absolute, nothing]

/-- The root is all that has nothing above it, besides the empty path. -/
theorem IsRoot.of_parent? (none : p.parent? = none) (nonempty : p.bytes ≠ []) : p.IsRoot := by
  have whole : unsplit (split p.bytes) = p.bytes := Separated.join_split separator p.bytes
  unfold parent? at none
  split at none
  case h_1 segments => exact absurd segments (Separated.split_ne_nil separator p.bytes)
  case h_2 s ss segments =>
  rw [segments] at whole
  split at none
  case h_1 trimmed =>
    have absolute : p.isAbsolute = true := by
      split at none
      case isFalse => cases none
      case isTrue begins =>
      rcases (Bool.or_eq_true_iff.mp begins).imp_right of_decide_eq_true with absolute | rfl
      · exact absolute
      · cases ss with
        | nil => exact absurd whole.symm nonempty
        | cons m ms => rw [isAbsolute, ← whole]; rfl
    have first : s = [] := by
      cases s with
      | nil => rfl
      | cons b bs =>
          have plain := separator_not_mem_of_mem_split (segments ▸ List.mem_cons_self)
          have begins : (unsplit ((b :: bs) :: ss)).head? = some b := by cases ss <;> rfl
          rw [isAbsolute, ← whole, begins] at absolute
          cases of_decide_eq_true absolute
          exact absurd List.mem_cons_self plain
    refine ⟨absolute, ?_⟩
    rw [segments]
    exact List.forall_mem_cons.mpr ⟨by rw [first]; rfl, skipped_of_trimSkipped trimmed⟩
  case h_2 =>
    split at none
    · split at none <;> cases none
    · cases none

/-! ### The parent -/

variable {q : Path} {n : Name} {ss : List Name}

theorem filterMap_trimSkipped (ss : List Name) :
    (trimSkipped ss).filterMap innerComponent? = ss.filterMap innerComponent? := by
  have parts : ss = trimSkipped ss ++ (ss.reverse.takeWhile isSkipped).reverse := by
    rw [trimSkipped, ← List.reverse_append, List.takeWhile_append_dropWhile, List.reverse_reverse]
  have nothing : (ss.reverse.takeWhile isSkipped).reverse.filterMap innerComponent? = [] :=
    filterMap_of_skipped fun s mem => (List.mem_takeWhile_imp (List.mem_reverse.mp mem))
  have whole := congrArg (List.filterMap innerComponent?) parts
  rw [List.filterMap_append, nothing, List.append_nil] at whole
  exact whole.symm

theorem exists_innerComponent? (named : isSkipped n = false) : ∃ c, innerComponent? n = some c := by
  rw [innerComponent?, if_neg (Bool.eq_false_iff.mp named)]
  split
  · exact ⟨_, rfl⟩
  · exact ⟨_, rfl⟩

/-- The last segment that is not trimmed names something. -/
theorem not_isSkipped_of_trimSkipped (trimmed : trimSkipped ss = ns ++ [n]) : isSkipped n = false := by
  have kept : ss.reverse.dropWhile isSkipped = n :: ns.reverse := by
    rw [← List.reverse_inj, ← trimSkipped, trimmed, List.reverse_cons, List.reverse_reverse]
  have head := List.head?_dropWhile_not isSkipped ss.reverse
  rwa [kept] at head

/-- The components of a path are those of its parent and one more. -/
theorem components_of_parent? (parent : p.parent? = some q) : ∃ c, p.components = q.components ++ [c] := by
  have first := firstComponent?_congr (Above.of_parent? parent).isAbsolute
  cases segments : split p.bytes with
  | nil => exact absurd segments (Separated.split_ne_nil separator p.bytes)
  | cons s ss =>
      have plain {t : Name} (mem : t ∈ s :: ss) : separator ∉ t := separator_not_mem_of_mem_split (segments ▸ mem)
      have components : p.components = (p.firstComponent? s).toList ++ (trimSkipped ss).filterMap innerComponent? := by
        rw [filterMap_trimSkipped, Path.components, segments]
      rw [parent?, segments] at parent
      dsimp only at parent
      split at parent
      case h_1 trimmed =>
        -- Only the first segment names anything, and it is no root.
        split at parent
        case isTrue => cases parent
        case isFalse relative =>
        cases parent
        simp only [Bool.or_eq_true, decide_eq_true_eq, not_or, Bool.not_eq_true] at relative
        obtain ⟨c, named⟩ : ∃ c, p.firstComponent? s = some c := by
          rw [firstComponent?, if_neg (Bool.eq_false_iff.mp relative.1)]
          by_cases current : s = dot
          · exact ⟨.current, if_pos current⟩
          · rw [if_neg current]
            exact exists_innerComponent? (by simp [isSkipped, relative.2, current])
        exact ⟨c, by rw [components, trimmed, named]; rfl⟩
      case h_2 trimmed nonempty =>
        obtain ⟨ns, n, kept⟩ : ∃ ns n, trimSkipped ss = ns ++ [n] :=
          ⟨_, _, (List.dropLast_concat_getLast nonempty).symm⟩
        obtain ⟨c, named⟩ := exists_innerComponent? (not_isSkipped_of_trimSkipped kept)
        refine ⟨c, ?_⟩
        rw [components, kept, List.filterMap_append, ← List.append_assoc, ← filterMap_trimSkipped ns, ← first]
        have last : [n].filterMap innerComponent? = [c] := by simp [named]
        rw [last, List.append_left_inj]
        rw [kept, List.dropLast_concat] at parent
        have before : trimSkipped ns <+: ss :=
          (prefix_trimSkipped ns).trans ((kept ▸ List.prefix_append ns [n]).trans (prefix_trimSkipped ss))
        split at parent
        case h_1 none =>
          rw [none]
          split at parent
          case isTrue => cases parent; rfl
          case isFalse =>
          cases parent
          have alone : split s = [s] := Separated.split_of_not_mem (plain List.mem_cons_self)
          rw [Path.components, alone]
        case h_2 =>
          cases parent
          have again : split (unsplit (s :: trimSkipped ns)) = s :: trimSkipped ns :=
            Separated.split_join fun m mem => plain ((List.prefix_cons_inj s).mpr before |>.subset mem)
          rw [Path.components, again]

end Sandbox.Path
