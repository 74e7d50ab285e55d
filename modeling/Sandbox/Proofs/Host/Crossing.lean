import Sandbox.Proofs.Host.Agree
import Sandbox.Proofs.Host.Touch

/-!
The places on a way.

Names lead from place to place, and through the targets of links. The places they cross on
the way (`Crosses`) are all that it depends on where they lead: trees that have the same
links there agree on what the names denote and on what they cross (`SameWay.denotes_iff`,
`SameWay.crosses_iff`). In contrast to the places that a walk looks at, they go on behind
what is missing, so that they are the same before directories are made and afterwards.
-/

namespace Sandbox

open Sandbox.Path

namespace FileTree

variable {t t' : FileTree} {l k m : Location} {s : Name} {ss ts ns : List Name} {n : Nat}

/-- A place is crossed on the way that names lead: it is there that a name is looked up, or
it is what a name that is looked up stands for. -/
inductive Crosses (t : FileTree) : Location → List Name → Location → Prop where
  | here (l : Location) (s : Name) (ss : List Name) : Crosses t l (s :: ss) l
  | next {l : Location} {s : Name} {ss : List Name} : s ≠ dot → s ≠ dotDot → Crosses t l (s :: ss) (l ++ [s])
  | stay {l k : Location} {ss : List Name} : Crosses t l ss k → Crosses t l (dot :: ss) k
  | up {l k : Location} {ss : List Name} : Crosses t l.dropLast ss k → Crosses t l (dotDot :: ss) k
  | down {l k : Location} {s : Name} {ss : List Name} : s ≠ dot → s ≠ dotDot →
      (∀ target, t.shapeAt (l ++ [s]) ≠ some (.link target)) → Crosses t (l ++ [s]) ss k → Crosses t l (s :: ss) k
  | link {l k : Location} {s : Name} {ss : List Name} {target : Path} : s ≠ dot → s ≠ dotDot →
      t.shapeAt (l ++ [s]) = some (.link target) → Crosses t (target.origin l) (target.steps ++ ss) k →
      Crosses t l (s :: ss) k

/-- The places that a walk looks at are crossed by its names. -/
theorem Crosses.of_visits (mem : k ∈ t.visits n l ss) : t.Crosses l ss k := by
  induction n, l, ss using t.walk_induction with
  | nil n l => rw [visits_nil] at mem; cases mem
  | cons n l s ss place link =>
      rw [visits_cons] at mem
      rcases List.mem_append.mp mem with looked | later
      · rcases mem_looks looked with rfl | ⟨notDot, notDotDot, rfl⟩
        · exact .here k s ss
        · exact .next notDot notDotDot
      cases step : t.step l s with
      | error e => rw [step] at later; cases later
      | ok r =>
          rw [step] at later
          obtain ⟨-, steps⟩ := step_eq_ok_iff.mp step
          cases steps with
          | stay => exact .stay (place l step later)
          | up => exact .up (place l.dropLast step later)
          | down notDot notDotDot _ found plain =>
              exact .down notDot notDotDot (by simpa [found] using plain) (place (l ++ [s]) step later)
          | @link _ target notDot notDotDot _ found =>
              cases n with
              | zero => cases later
              | succ n => exact .link notDot notDotDot found (link n l target rfl step later)

/-- What is crossed on the way along two lists of names is crossed along the first, or
along the second from where the first leads. -/
theorem crosses_append_iff :
    t.Crosses l (ss ++ ts) k ↔ t.Crosses l ss k ∨ ∃ m, t.Denotes l ss m ∧ t.Crosses m ts k := by
  constructor
  · intro whole
    generalize both : ss ++ ts = us at whole
    induction whole generalizing ss with
    | here l s us =>
        cases ss with
        | nil => cases (show ts = _ from both); exact .inr ⟨l, .here l, .here l s us⟩
        | cons s ss => cases both; exact .inl (.here l _ _)
    | @next l s us notDot notDotDot =>
        cases ss with
        | nil => cases (show ts = _ from both); exact .inr ⟨l, .here l, .next notDot notDotDot⟩
        | cons s ss => cases both; exact .inl (.next notDot notDotDot)
    | @stay l k us further ih =>
        cases ss with
        | nil => cases (show ts = _ from both); exact .inr ⟨l, .here l, .stay further⟩
        | cons s ss =>
            cases both
            exact (ih rfl).imp .stay fun ⟨m, first, second⟩ => ⟨m, .stay first, second⟩
    | @up l k us further ih =>
        cases ss with
        | nil => cases (show ts = _ from both); exact .inr ⟨l, .here l, .up further⟩
        | cons s ss =>
            cases both
            exact (ih rfl).imp .up fun ⟨m, first, second⟩ => ⟨m, .up first, second⟩
    | @down l k s us notDot notDotDot plain further ih =>
        cases ss with
        | nil => cases (show ts = _ from both); exact .inr ⟨l, .here l, .down notDot notDotDot plain further⟩
        | cons s ss =>
            cases both
            exact (ih rfl).imp (.down notDot notDotDot plain)
              fun ⟨m, first, second⟩ => ⟨m, .down notDot notDotDot plain first, second⟩
    | @link l k s us target notDot notDotDot found further ih =>
        cases ss with
        | nil => cases (show ts = _ from both); exact .inr ⟨l, .here l, .link notDot notDotDot found further⟩
        | cons s ss =>
            cases both
            exact (ih (List.append_assoc ..)).imp (.link notDot notDotDot found)
              fun ⟨m, first, second⟩ => ⟨m, .link notDot notDotDot found first, second⟩
  · rintro (first | ⟨m, first, second⟩)
    · induction first with
      | here l s ss => exact .here l s _
      | next notDot notDotDot => exact .next notDot notDotDot
      | stay _ ih => exact .stay ih
      | up _ ih => exact .up ih
      | down notDot notDotDot plain _ ih => exact .down notDot notDotDot plain ih
      | link notDot notDotDot found _ ih => exact .link notDot notDotDot found (List.append_assoc .. ▸ ih)
    · induction first with
      | here l => exact second
      | stay _ ih => exact .stay (ih second)
      | up _ ih => exact .up (ih second)
      | down notDot notDotDot plain _ ih => exact .down notDot notDotDot plain (ih second)
      | link notDot notDotDot found _ ih => exact .link notDot notDotDot found (List.append_assoc .. ▸ ih second)

/-- Where no link stands on the way, ordinary names cross what they name. -/
theorem Crosses.eq_append (h : t.Crosses l ss k) (plain : t.NoLinkAlong l ss)
    (ordinary : ∀ s ∈ ss, Ordinary s) : ∃ ts, ts <+: ss ∧ k = l ++ ts := by
  induction ss generalizing l with
  | nil => cases h
  | cons s ss ih =>
      cases h with
      | here => exact ⟨[], List.nil_prefix, (List.append_nil _).symm⟩
      | next => exact ⟨[s], List.prefix_append [s] ss, rfl⟩
      | stay => exact absurd rfl (ordinary _ List.mem_cons_self).ne_dot
      | up => exact absurd rfl (ordinary _ List.mem_cons_self).ne_dotDot
      | down _ _ _ h =>
          obtain ⟨ts, within, rfl⟩ := ih h plain.tail fun s hs => ordinary s (List.mem_cons_of_mem _ hs)
          exact ⟨s :: ts, List.prefix_cons_inj s |>.mpr within, List.append_assoc ..⟩
      | link _ _ found => exact absurd found (plain.head _)

/-- All that ordinary names name is crossed on the way along them, and its start. -/
theorem NoLinkAlong.crosses (plain : t.NoLinkAlong l ss) (ordinary : ∀ s ∈ ss, Ordinary s) (some : ss ≠ [])
    (within : ts <+: ss) : t.Crosses l ss (l ++ ts) := by
  induction ts generalizing l ss with
  | nil =>
      obtain ⟨s, ss, rfl⟩ := List.exists_cons_of_ne_nil some
      rw [List.append_nil]
      exact .here l s ss
  | cons s ts ih =>
      obtain ⟨rest, rfl⟩ := within
      have here := ordinary s List.mem_cons_self
      cases ts with
      | nil => exact .next here.ne_dot here.ne_dotDot
      | cons s' ts =>
          have further := ih plain.tail (fun m mem => ordinary m (List.mem_cons_of_mem s mem)) (by simp)
            (List.prefix_append (s' :: ts) rest)
          rw [List.append_assoc] at further
          exact .down here.ne_dot here.ne_dotDot plain.head further

/-- The trees have the same links on the way that names lead in the first. -/
def SameWay (t : FileTree) (l : Location) (ss : List Name) (t' : FileTree) : Prop :=
  ∀ k, t.Crosses l ss k → ∀ target, t'.shapeAt k = some (.link target) ↔ t.shapeAt k = some (.link target)

namespace SameWay

theorem stay (same : t.SameWay l (dot :: ss) t') : t.SameWay l ss t' :=
  fun k crosses => same k (.stay crosses)

theorem up (same : t.SameWay l (dotDot :: ss) t') : t.SameWay l.dropLast ss t' :=
  fun k crosses => same k (.up crosses)

theorem down (same : t.SameWay l (s :: ss) t') (notDot : s ≠ dot) (notDotDot : s ≠ dotDot)
    (plain : ∀ target, t.shapeAt (l ++ [s]) ≠ some (.link target)) : t.SameWay (l ++ [s]) ss t' :=
  fun k crosses => same k (.down notDot notDotDot plain crosses)

theorem link {target : Path} (same : t.SameWay l (s :: ss) t') (notDot : s ≠ dot) (notDotDot : s ≠ dotDot)
    (found : t.shapeAt (l ++ [s]) = some (.link target)) :
    t.SameWay (target.origin l) (target.steps ++ ss) t' :=
  fun k crosses => same k (.link notDot notDotDot found crosses)

theorem denotes (same : t.SameWay l ss t') (h : t.Denotes l ss m) : t'.Denotes l ss m := by
  induction h with
  | here l => exact .here l
  | stay _ ih => exact .stay (ih same.stay)
  | up _ ih => exact .up (ih same.up)
  | down notDot notDotDot plain _ ih =>
      refine .down notDot notDotDot (fun target => ?_) (ih (same.down notDot notDotDot plain))
      exact mt (same _ (.next notDot notDotDot) target).mp (plain target)
  | link notDot notDotDot found _ ih =>
      exact .link notDot notDotDot ((same _ (.next notDot notDotDot) _).mpr found)
        (ih (same.link notDot notDotDot found))

theorem crosses (same : t.SameWay l ss t') (h : t.Crosses l ss k) : t'.Crosses l ss k := by
  induction h with
  | here l s ss => exact .here l s ss
  | next notDot notDotDot => exact .next notDot notDotDot
  | stay _ ih => exact .stay (ih same.stay)
  | up _ ih => exact .up (ih same.up)
  | down notDot notDotDot plain _ ih =>
      refine .down notDot notDotDot (fun target => ?_) (ih (same.down notDot notDotDot plain))
      exact mt (same _ (.next notDot notDotDot) target).mp (plain target)
  | link notDot notDotDot found _ ih =>
      exact .link notDot notDotDot ((same _ (.next notDot notDotDot) _).mpr found)
        (ih (same.link notDot notDotDot found))

/-- The second tree then has the same links as the first on its own way. -/
theorem symm (same : t.SameWay l ss t') : t'.SameWay l ss t := by
  intro k crosses
  refine fun target => ((same k ?_) target).symm
  induction crosses with
  | here l s ss => exact .here l s ss
  | next notDot notDotDot => exact .next notDot notDotDot
  | stay _ ih => exact .stay (ih same.stay)
  | up _ ih => exact .up (ih same.up)
  | down notDot notDotDot plain' _ ih =>
      have plain (target : Path) := mt (same _ (.next notDot notDotDot) target).mpr (plain' target)
      exact .down notDot notDotDot plain (ih (same.down notDot notDotDot plain))
  | link notDot notDotDot found' _ ih =>
      have found := (same _ (.next notDot notDotDot) _).mp found'
      exact .link notDot notDotDot found (ih (same.link notDot notDotDot found))

/-- Names denote the same where their way is the same. -/
theorem denotes_iff (same : t.SameWay l ss t') : t'.Denotes l ss m ↔ t.Denotes l ss m :=
  ⟨same.symm.denotes, same.denotes⟩

theorem crosses_iff (same : t.SameWay l ss t') : t'.Crosses l ss k ↔ t.Crosses l ss k :=
  ⟨same.symm.crosses, same.crosses⟩

end SameWay

end FileTree

namespace Host

variable {h h' : Host} {p base : Path} {l k : Location} {ns ms : List Name}

/-- A place is crossed on the way along a path. -/
def Crosses (h : Host) (p : Path) (k : Location) : Prop :=
  h.tree.Crosses (p.origin h.workingDirectory) p.names k

/-- New directories change nothing of what a path crosses. -/
theorem OnlyDirectories.crosses_iff (only : h.OnlyDirectories h') : h'.Crosses p k ↔ h.Crosses p k := by
  unfold Crosses
  rw [only.setting.workingDirectory]
  exact FileTree.SameWay.crosses_iff fun l _ => only.tree.sameLinks l

/-- What is on the way along a path is crossed on the way that goes on behind it. -/
theorem OnWay.crosses (onWay : h.OnWay base k) (ne : ns ≠ []) :
    h.tree.Crosses (base.origin h.workingDirectory) (base.names ++ ns) k := by
  obtain ⟨first, ⟨rest, whole⟩, denotes⟩ := onWay
  obtain ⟨s, ss, more⟩ : ∃ s ss, rest ++ ns = s :: ss :=
    List.exists_cons_of_ne_nil fun none => ne (List.append_eq_nil_iff.mp none).2
  rw [← whole, List.append_assoc, more]
  exact FileTree.crosses_append_iff.mpr (.inr ⟨k, denotes, .here k s ss⟩)

theorem Passes.crosses (passes : h.Passes base ns k) (ne : ms ≠ []) :
    h.tree.Crosses (base.origin h.workingDirectory) (base.names ++ (ns ++ ms)) k := by
  obtain ⟨first, -, ⟨rest, whole⟩, denotes⟩ := passes
  obtain ⟨s, ss, more⟩ : ∃ s ss, rest ++ ms = s :: ss :=
    List.exists_cons_of_ne_nil fun none => ne (List.append_eq_nil_iff.mp none).2
  rw [← whole, List.append_assoc, more, ← List.append_assoc]
  exact FileTree.crosses_append_iff.mpr (.inr ⟨k, denotes, .here k s ss⟩)

end Host

end Sandbox
