import Sandbox.Directories
import Sandbox.Proofs.Path.Child

/-!
Paths above a path, and the names below a base.

The paths that are tried when a directory is made with all that is missing above it
lead the same way as that directory's and stop earlier (`Above.of_mem_ancestors`). The
names that a path has below a base are ordinary ones (`ordinary_of_segmentsBelow`), so
none of them leads up again or stays in place.
-/

namespace Sandbox.Path

variable {p q r : Path} {s : Name} {ss : List Name}

/-! ### Above -/

/-- A path leads the same way as another one and may stop earlier. -/
structure Above (q p : Path) : Prop where
  isAbsolute : q.isAbsolute = p.isAbsolute
  names : q.names <+: p.names

theorem separator_not_mem_of_mem_split (mem : s ∈ split p.bytes) : separator ∉ s :=
  Separated.not_mem_of_mem_split mem

/-- With two segments or more, the first alone says where a path begins. -/
theorem isAbsolute_unsplit (s n m : Name) (ss ts : List Name) :
    (Path.mk (unsplit (s :: n :: ss))).isAbsolute = (Path.mk (unsplit (s :: m :: ts))).isAbsolute := by
  cases s <;> rfl

theorem prefix_trimSkipped (ss : List Name) : trimSkipped ss <+: ss := by
  rw [← List.reverse_suffix, trimSkipped, List.reverse_reverse]
  exact List.dropWhile_suffix _

namespace Above

theorem refl (p : Path) : Above p p :=
  ⟨rfl, List.prefix_refl _⟩

theorem trans (h : Above r q) (h' : Above q p) : Above r p :=
  ⟨h.isAbsolute.trans h'.isAbsolute, h.names.trans h'.names⟩

theorem origin_eq (h : Above q p) (dir : Location) : q.origin dir = p.origin dir := by
  rw [origin, origin, h.isAbsolute]

/-- The first segments of a path, at least two, are above it. -/
theorem of_prefix {n : Name} {ts : List Name} (segments : split p.bytes = s :: ss) (first : n :: ts <+: ss) :
    Above ⟨unsplit (s :: n :: ts)⟩ p := by
  have written : p = ⟨unsplit (s :: ss)⟩ := by
    rw [← segments]
    exact congrArg Path.mk (Separated.join_split separator p.bytes).symm
  have taken : s :: n :: ts <+: s :: ss := List.prefix_cons_inj s |>.mpr first
  have plain : ∀ m ∈ s :: n :: ts, separator ∉ m := by
    intro m mem
    exact separator_not_mem_of_mem_split (segments ▸ taken.subset mem)
  have again : split (unsplit (s :: n :: ts)) = s :: n :: ts := Separated.split_join plain
  constructor
  · cases ss with
    | nil => exact absurd first.length_le (by simp)
    | cons m ms =>
        rw [written]
        exact isAbsolute_unsplit s n m ts ms
  · rw [Path.names, Path.names, again, segments]
    exact taken.filter _

/-- The parent of a path is above it. -/
theorem of_parent? (parent : p.parent? = some q) : q.Above p := by
  cases segments : split p.bytes with
  | nil => exact absurd segments (Separated.split_ne_nil separator p.bytes)
  | cons s ss =>
      have plain : separator ∉ s := separator_not_mem_of_mem_split (segments ▸ List.mem_cons_self)
      rw [parent?, segments] at parent
      dsimp only at parent
      split at parent
      case h_1 =>
        split at parent
        case isTrue => cases parent
        case isFalse relative =>
        cases parent
        simp only [Bool.or_eq_true, decide_eq_true_eq, not_or, Bool.not_eq_true] at relative
        exact ⟨relative.1.symm, List.nil_prefix⟩
      case h_2 =>
      have trimmed : trimSkipped (trimSkipped ss).dropLast <+: ss :=
        (prefix_trimSkipped _).trans ((List.dropLast_prefix _).trans (prefix_trimSkipped _))
      split at parent
      case h_1 =>
        split at parent
        case isTrue absolute => cases parent; exact ⟨absolute.symm, List.nil_prefix⟩
        case isFalse relative =>
        cases parent
        refine ⟨?_, ?_⟩
        · rw [isAbsolute_of_not_mem plain, Bool.eq_false_iff.mpr relative]
        · have alone : split s = [s] := Separated.split_of_not_mem plain
          rw [Path.names, Path.names, alone, segments]
          exact (List.prefix_append [s] ss).filter _
      case h_2 _ some =>
      cases parent
      cases kept : trimSkipped (trimSkipped ss).dropLast with
      | nil => exact absurd kept some
      | cons n ts => exact of_prefix segments (kept ▸ trimmed)

/-- All that is tried when a directory is made is above it. -/
theorem of_mem_ancestors (mem : q ∈ p.ancestors) : q.Above p := by
  unfold ancestors at mem
  generalize p.bytes.length = fuel at mem
  induction fuel generalizing p with
  | zero => cases mem
  | succ fuel ih =>
      rw [ancestorsUpTo] at mem
      split at mem
      case h_1 => cases mem
      case h_2 r parent =>
      rcases List.mem_cons.mp mem with rfl | mem
      · exact .refl _
      · exact (ih mem).trans (of_parent? parent)

end Above

/-! ### Names below a base -/

/-- A component that is an ordinary name is one of the segments. -/
theorem ordinary_of_innerComponent? {n : Name} (mem : s ∈ split p.bytes)
    (normal : innerComponent? s = some (.normal n)) : Ordinary n := by
  have plain := separator_not_mem_of_mem_split mem
  unfold innerComponent? at normal
  split at normal
  case isTrue => cases normal
  case isFalse named =>
  split at normal
  case isTrue => cases normal
  case isFalse notDotDot =>
  cases normal
  simp only [isSkipped, Bool.or_eq_true, decide_eq_true_eq, not_or] at named
  exact ⟨named.1, named.2, notDotDot, plain⟩

theorem ordinary_of_mem_components {n : Name} (mem : .normal n ∈ p.components) : Ordinary n := by
  unfold components at mem
  split at mem
  case h_1 => cases mem
  case h_2 s ss segments =>
  rcases List.mem_append.mp mem with first | later
  · have first := Option.mem_toList.mp first
    unfold firstComponent? at first
    split at first
    case isTrue => cases first
    case isFalse =>
    split at first
    case isTrue => cases first
    case isFalse => exact ordinary_of_innerComponent? (segments ▸ List.mem_cons_self) first
  · obtain ⟨m, mem, normal⟩ := List.mem_filterMap.mp later
    exact ordinary_of_innerComponent? (segments ▸ List.mem_cons_of_mem s mem) normal

theorem ordinary_of_segmentsBelow {base : Path} {ns : List Name} (ok : segmentsBelow base p = .ok ns) :
    ∀ n ∈ ns, Ordinary n := by
  intro n mem
  unfold segmentsBelow at ok
  split at ok
  case h_1 => cases ok
  case h_2 cs below =>
  split at ok
  case isFalse => cases ok
  case isTrue =>
  cases ok
  obtain ⟨component, inside, name⟩ := List.mem_filterMap.mp mem
  cases component with
  | normal m =>
      cases name
      have components : p.components = base.components ++ cs := stripPrefix?_eq_some_iff.mp below
      exact ordinary_of_mem_components (components ▸ List.mem_append_right _ inside)
  | root | current | parent => cases name

end Sandbox.Path
