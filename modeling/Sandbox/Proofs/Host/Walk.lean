import Sandbox.Proofs.Path.Child

/-!
What a walk depends on.

A walk looks at few places (`visits`), and of the entry at each it sees only
whether it is a directory, a link or something else (`shapeAt`). Two trees that
look alike there let the same walk end in the same way, failed or not
(`walk_congr`). The walks that succeed are given step by step (`Walks`,
`walk_eq_ok_iff`); one stays as it is when nothing that it saw is lost
(`walk_of_keeps`).

A walk along two lists of names is the walk along the first and then, with the
links that are left, along the second (`walk_append`, `walk_prefix`).

`Denotes` says which location names lead to when whatever is missing, too long or
no directory is passed over. It depends on the links of a tree and on nothing
else (`Denotes.congr`).
-/

namespace Sandbox

/-- What a walk sees of an entry. -/
inductive Shape where
  | directory
  | link (target : Path)
  | other
  deriving DecidableEq, Repr

/-- The shape of an entry with some content. -/
def Content.shape : Content → Shape
  | .directory => .directory
  | .link target => .link target
  | .file _ | .device .. => .other

namespace FileTree

variable {t t' : FileTree} {l m : Location} {s : Name} {ss ts : List Name} {n : Nat}

/-- What a walk sees at a location. -/
def shapeAt (t : FileTree) (l : Location) : Option Shape :=
  (t.get? l).map (·.content.shape)

theorem isDirectory_iff : t.isDirectory l = true ↔ t.shapeAt l = some .directory := by
  unfold isDirectory shapeAt Entry.isDirectory
  cases t.get? l with
  | none => simp
  | some e => cases h : e.content <;> simp [h, Content.shape]

/-- A tree without links has none at any location. -/
theorem shapeAt_ne_link (none : t.entries.all fun e => e.2.content.shape ∈ [.directory, .other])
    (l : Location) (target : Path) : t.shapeAt l ≠ some (.link target) := by
  intro found
  obtain ⟨e, there, shape⟩ := Option.map_eq_some_iff.mp found
  obtain ⟨front, back, entries, -⟩ := List.lookup_eq_some_iff.mp there
  have plain := List.all_eq_true.mp none (l, e) (by simp [entries])
  simp [shape] at plain

/-- A step depends on the shapes of the directory and of what the name stands for. -/
theorem step_eq (t : FileTree) (l : Location) (s : Name) :
    t.step l s =
      if t.shapeAt l = some .directory then
        if s = Path.dot then .ok (.place l)
        else if s = Path.dotDot then .ok (.place l.dropLast)
        else if maxNameLength < s.length then .error .nameTooLong
        else
          match t.shapeAt (l ++ [s]) with
          | none => .error .noEntry
          | some (.link target) => .ok (.link l target)
          | some _ => .ok (.place (l ++ [s]))
      else .error .notDirectory := by
  unfold step
  simp only [isDirectory_iff]
  congr 4
  unfold shapeAt
  cases t.get? (l ++ [s]) with
  | none => rfl
  | some e => cases h : e.content <;> simp [h, Content.shape]

/-- Where a step that succeeds can lead. -/
inductive Steps (t : FileTree) (l : Location) : Name → Step → Prop where
  | stay : Steps t l Path.dot (.place l)
  | up : Steps t l Path.dotDot (.place l.dropLast)
  | down {s : Name} {c : Shape} : s ≠ Path.dot → s ≠ Path.dotDot → s.length ≤ maxNameLength →
      t.shapeAt (l ++ [s]) = some c → (∀ target, c ≠ .link target) → Steps t l s (.place (l ++ [s]))
  | link {s : Name} {target : Path} : s ≠ Path.dot → s ≠ Path.dotDot → s.length ≤ maxNameLength →
      t.shapeAt (l ++ [s]) = some (.link target) → Steps t l s (.link l target)

/-- A step succeeds from a directory and leads where `Steps` says. -/
theorem step_eq_ok_iff {r : Step} :
    t.step l s = .ok r ↔ t.shapeAt l = some .directory ∧ t.Steps l s r := by
  rw [step_eq]
  constructor
  · intro ok
    split at ok
    case isFalse => cases ok
    case isTrue dir =>
      refine ⟨dir, ?_⟩
      split at ok
      case isTrue here => cases ok; exact here ▸ .stay
      case isFalse notDot =>
      split at ok
      case isTrue up => cases ok; exact up ▸ .up
      case isFalse notDotDot =>
      split at ok
      case isTrue => cases ok
      case isFalse short =>
      split at ok
      · cases ok
      · next found => cases ok; exact .link notDot notDotDot (Nat.not_lt.mp short) found
      · next c plain found =>
          cases ok
          exact .down notDot notDotDot (Nat.not_lt.mp short) found plain
  · rintro ⟨dir, steps⟩
    rw [if_pos dir]
    cases steps with
    | stay => rfl
    | up => rfl
    | @down _ c notDot notDotDot short found plain =>
        rw [if_neg notDot, if_neg notDotDot, if_neg (Nat.not_lt.mpr short), found]
        cases c with
        | link target => exact absurd rfl (plain target)
        | directory | other => rfl
    | link notDot notDotDot short found =>
        rw [if_neg notDot, if_neg notDotDot, if_neg (Nat.not_lt.mpr short), found]

/-! ### The places that a walk looks at -/

/-- The places that a step looks at. A `.` or `..` is not looked up. -/
def looks (l : Location) (s : Name) : List Location :=
  if s = Path.dot ∨ s = Path.dotDot then [l] else [l, l ++ [s]]

theorem mem_looks {k : Location} (h : k ∈ looks l s) :
    k = l ∨ s ≠ Path.dot ∧ s ≠ Path.dotDot ∧ k = l ++ [s] := by
  unfold looks at h
  split at h
  · exact .inl (List.mem_singleton.mp h)
  · next ordinary =>
      simp only [List.mem_cons, List.not_mem_nil, or_false] at h
      exact h.imp_right fun e => ⟨fun d => ordinary (.inl d), fun d => ordinary (.inr d), e⟩

/-- The places that a walk looks at which hands over to `follow` at the first link. -/
def visitsFrom (t : FileTree) (follow : Location → List Name → List Location) :
    Location → List Name → List Location
  | _, [] => []
  | l, s :: ss =>
    looks l s ++
      match t.step l s with
      | .error _ => []
      | .ok (.place m) => visitsFrom t follow m ss
      | .ok (.link dir target) => follow (target.origin dir) (target.steps ++ ss)

/-- The places that a walk looks at which follows up to `links` links. -/
def visits (t : FileTree) : Nat → Location → List Name → List Location
  | 0 => t.visitsFrom fun _ _ => []
  | links + 1 => t.visitsFrom (visits t links)

/-! ### One segment after the other -/

@[simp] theorem walk_nil (t : FileTree) (n : Nat) (l : Location) : t.walk n l [] = .ok l := by
  cases n <;> rfl

@[simp] theorem visits_nil (t : FileTree) (n : Nat) (l : Location) : t.visits n l [] = [] := by
  cases n <;> rfl

theorem walk_cons (t : FileTree) (n : Nat) (l : Location) (s : Name) (ss : List Name) :
    t.walk n l (s :: ss) =
      match t.step l s, n with
      | .error e, _ => .error e
      | .ok (.place m), n => t.walk n m ss
      | .ok (.link _ _), 0 => .error .tooManyLinks
      | .ok (.link dir target), n + 1 => t.walk n (target.origin dir) (target.steps ++ ss) := by
  cases n with
  | zero | succ _ =>
      simp only [walk, walkFrom]
      cases t.step l s with
      | error e => rfl
      | ok r => cases r <;> rfl

theorem visits_cons (t : FileTree) (n : Nat) (l : Location) (s : Name) (ss : List Name) :
    t.visits n l (s :: ss) = looks l s ++
      match t.step l s, n with
      | .error _, _ => []
      | .ok (.place m), n => t.visits n m ss
      | .ok (.link _ _), 0 => []
      | .ok (.link dir target), n + 1 => t.visits n (target.origin dir) (target.steps ++ ss) := by
  cases n with
  | zero | succ _ =>
      simp only [visits, visitsFrom]
      cases t.step l s with
      | error e => rfl
      | ok r => cases r <;> rfl

/-- What holds of a walk without segments, and of a walk when it holds of the one that
is left after a step, holds of every walk. -/
theorem walk_induction (t : FileTree) {P : Nat → Location → List Name → Prop}
    (nil : ∀ n l, P n l [])
    (cons : ∀ n l s ss, (∀ m, t.step l s = .ok (.place m) → P n m ss) →
      (∀ k dir target, n = k + 1 → t.step l s = .ok (.link dir target) →
        P k (target.origin dir) (target.steps ++ ss)) → P n l (s :: ss))
    (n : Nat) (l : Location) (ss : List Name) : P n l ss := by
  induction n generalizing l ss with
  | zero =>
      induction ss generalizing l with
      | nil => exact nil 0 l
      | cons s ss ih => exact cons 0 l s ss (fun m _ => ih m) (fun k _ _ less => absurd less (by simp))
  | succ n ihn =>
      induction ss generalizing l with
      | nil => exact nil (n + 1) l
      | cons s ss ih =>
          refine cons (n + 1) l s ss (fun m _ => ih m) ?_
          rintro k dir target same -
          cases same
          exact ihn _ _

/-- The walks that end at `m`, with the links they may follow. -/
inductive Walks (t : FileTree) (m : Location) : Nat → Location → List Name → Prop where
  | here (n : Nat) : Walks t m n m []
  | place {n : Nat} {l k : Location} {s : Name} {ss : List Name} :
      t.step l s = .ok (.place k) → Walks t m n k ss → Walks t m n l (s :: ss)
  | link {n : Nat} {l dir : Location} {s : Name} {ss : List Name} {target : Path} :
      t.step l s = .ok (.link dir target) → Walks t m n (target.origin dir) (target.steps ++ ss) →
      Walks t m (n + 1) l (s :: ss)

theorem walk_eq_ok_iff : t.walk n l ss = .ok m ↔ t.Walks m n l ss := by
  constructor
  · induction n, l, ss using t.walk_induction with
    | nil n l =>
        intro ok
        rw [walk_nil] at ok
        cases ok
        exact .here n
    | cons n l s ss place link =>
        intro ok
        rw [walk_cons] at ok
        cases step : t.step l s with
        | error e => rw [step] at ok; cases ok
        | ok r =>
            rw [step] at ok
            cases r with
            | place k => exact .place step (place k step ok)
            | link dir target =>
                cases n with
                | zero => cases ok
                | succ n => exact .link step (link n dir target rfl step ok)
  · intro walks
    induction walks with
    | here n => exact walk_nil t n m
    | place step _ ih => rw [walk_cons, step]; exact ih
    | link step _ ih => rw [walk_cons, step]; exact ih

theorem step_congr (same : ∀ k ∈ looks l s, t'.shapeAt k = t.shapeAt k) :
    t'.step l s = t.step l s := by
  rw [step_eq, step_eq]
  unfold looks at same
  by_cases special : s = Path.dot ∨ s = Path.dotDot
  · rw [if_pos special] at same
    rw [same l List.mem_cons_self]
    rcases special with rfl | rfl <;> simp [Path.dot, Path.dotDot]
  · rw [if_neg special] at same
    rw [same l List.mem_cons_self, same (l ++ [s]) (by simp)]

private theorem congr_of_visits (same : ∀ k ∈ t.visits n l ss, t'.shapeAt k = t.shapeAt k) :
    t'.walk n l ss = t.walk n l ss ∧ t'.visits n l ss = t.visits n l ss := by
  induction n, l, ss using t.walk_induction with
  | nil n l => simp
  | cons n l s ss place link =>
      rw [visits_cons] at same
      have here := step_congr fun k hk => same k (List.mem_append_left _ hk)
      have later := fun k hk => same k (List.mem_append_right _ hk)
      rw [walk_cons, walk_cons, visits_cons, visits_cons, here]
      cases step : t.step l s with
      | error e => exact ⟨rfl, rfl⟩
      | ok r =>
          rw [step] at later
          cases r with
          | place m => exact (place m step later).imp_right (congrArg _)
          | link dir target =>
              cases n with
              | zero => exact ⟨rfl, rfl⟩
              | succ n => exact (link n dir target rfl step later).imp_right (congrArg _)

/-- A walk ends in the same way, failed or not, in a tree that looks the same
wherever the walk looks. -/
theorem walk_congr (same : ∀ k ∈ t.visits n l ss, t'.shapeAt k = t.shapeAt k) :
    t'.walk n l ss = t.walk n l ss :=
  (congr_of_visits same).1

/-- The walk then looks at the same places, too. -/
theorem visits_congr (same : ∀ k ∈ t.visits n l ss, t'.shapeAt k = t.shapeAt k) :
    t'.visits n l ss = t.visits n l ss :=
  (congr_of_visits same).2

theorem visits_cons_place (step : t.step l s = .ok (.place m)) :
    t.visits n l (s :: ss) = looks l s ++ t.visits n m ss := by
  rw [visits_cons, step]

theorem visits_cons_link {dir : Location} {target : Path} (step : t.step l s = .ok (.link dir target)) :
    t.visits (n + 1) l (s :: ss) = looks l s ++ t.visits n (target.origin dir) (target.steps ++ ss) := by
  rw [visits_cons, step]

/-- A step that succeeds finds something wherever it looks. -/
theorem shapeAt_of_step {r : Step} (ok : t.step l s = .ok r) : ∀ k ∈ looks l s, (t.shapeAt k).isSome := by
  obtain ⟨dir, steps⟩ := step_eq_ok_iff.mp ok
  unfold looks
  cases steps with
  | stay | up => simp [dir]
  | down notDot notDotDot _ found | link notDot notDotDot _ found => simp [dir, notDot, notDotDot, found]

/-- A walk that succeeds finds something wherever it looks. -/
theorem shapeAt_of_walk (ok : t.walk n l ss = .ok m) :
    ∀ k ∈ t.visits n l ss, (t.shapeAt k).isSome := by
  rw [walk_eq_ok_iff] at ok
  induction ok with
  | here n => simp
  | place step _ ih =>
      rw [visits_cons_place step]
      intro k mem
      rcases List.mem_append.mp mem with looked | later
      · exact shapeAt_of_step step k looked
      · exact ih k later
  | link step _ ih =>
      rw [visits_cons_link step]
      intro k mem
      rcases List.mem_append.mp mem with looked | later
      · exact shapeAt_of_step step k looked
      · exact ih k later

/-- A walk that ends in a directory meets only directories and links. -/
theorem shape_of_walk (directory : t.isDirectory m = true) (ok : t.walk n l ss = .ok m) :
    ∀ k ∈ t.visits n l ss, t.shapeAt k ≠ some .other := by
  rw [isDirectory_iff] at directory
  suffices t.shapeAt l ≠ some .other ∧ ∀ k ∈ t.visits n l ss, t.shapeAt k ≠ some .other from this.2
  rw [walk_eq_ok_iff] at ok
  induction ok with
  | here n => simp [directory]
  | place step _ ih =>
      obtain ⟨here, steps⟩ := step_eq_ok_iff.mp step
      obtain ⟨next, later⟩ := ih
      rw [visits_cons_place step]
      refine ⟨by simp [here], ?_⟩
      intro k mem
      rcases List.mem_append.mp mem with looked | mem
      · rcases mem_looks looked with rfl | ⟨notDot, notDotDot, rfl⟩
        · simp [here]
        · cases steps with
          | stay => exact absurd rfl notDot
          | up => exact absurd rfl notDotDot
          | down => exact next
      · exact later k mem
  | link step _ ih =>
      obtain ⟨here, steps⟩ := step_eq_ok_iff.mp step
      obtain ⟨-, later⟩ := ih
      rw [visits_cons_link step]
      refine ⟨by simp [here], ?_⟩
      intro k mem
      rcases List.mem_append.mp mem with looked | mem
      · rcases mem_looks looked with rfl | ⟨-, -, rfl⟩
        · simp [here]
        · cases steps with
          | link _ _ _ found => simp [found]
      · exact later k mem

/-- A walk that succeeds is not changed when nothing that it saw is lost. -/
theorem walk_of_keeps (ok : t.walk n l ss = .ok m)
    (keeps : ∀ k ∈ t.visits n l ss, ∀ c, t.shapeAt k = some c → t'.shapeAt k = some c) :
    t'.walk n l ss = .ok m := by
  refine (walk_congr fun k hk => ?_).trans ok
  obtain ⟨c, found⟩ := Option.isSome_iff_exists.mp (shapeAt_of_walk ok k hk)
  rw [found]
  exact keeps k hk c found

/-! ### Walks in parts -/

theorem walk_cons_place (step : t.step l s = .ok (.place m)) : t.walk n l (s :: ss) = t.walk n m ss := by
  rw [walk_cons, step]

theorem step_of_walk_cons (ok : t.walk n l (s :: ss) = .ok m) : ∃ r, t.step l s = .ok r := by
  cases walk_eq_ok_iff.mp ok with
  | place step _ => exact ⟨_, step⟩
  | link step _ => exact ⟨_, step⟩

/-- A walk goes on where its first part ends, with the links that are left, and looks
at what the parts look at. -/
theorem walk_append (ok : t.walk n l ss = .ok m) :
    ∃ left, ∀ ts, t.walk n l (ss ++ ts) = t.walk left m ts ∧
      t.visits n l (ss ++ ts) = t.visits n l ss ++ t.visits left m ts := by
  rw [walk_eq_ok_iff] at ok
  induction ok with
  | here n => exact ⟨n, fun ts => by simp⟩
  | place step _ ih =>
      obtain ⟨left, after⟩ := ih
      refine ⟨left, ?_⟩
      intro ts
      obtain ⟨walked, seen⟩ := after ts
      rw [List.cons_append, walk_cons_place step, visits_cons_place step, visits_cons_place step,
        List.append_assoc, seen]
      exact ⟨walked, rfl⟩
  | link step _ ih =>
      obtain ⟨left, after⟩ := ih
      refine ⟨left, ?_⟩
      intro ts
      obtain ⟨walked, seen⟩ := after ts
      rw [List.append_assoc] at walked seen
      rw [List.cons_append, walk_cons, step, visits_cons_link step, visits_cons_link step,
        List.append_assoc, seen]
      exact ⟨walked, rfl⟩

/-- The first part of a walk that succeeds succeeds. -/
theorem walk_prefix (ok : t.walk n l (ss ++ ts) = .ok m) : ∃ k, t.walk n l ss = .ok k := by
  generalize whole : ss ++ ts = us at ok
  rw [walk_eq_ok_iff] at ok
  induction ok generalizing ss with
  | here n =>
      obtain ⟨rfl, -⟩ := List.append_eq_nil_iff.mp whole
      exact ⟨m, walk_nil t n m⟩
  | @place n l _ s us step _ ih =>
      cases ss with
      | nil => exact ⟨l, walk_nil t n l⟩
      | cons s' ss =>
          cases whole
          rw [walk_cons_place step]
          exact ih rfl
  | @link n l _ s us target step _ ih =>
      cases ss with
      | nil => exact ⟨l, walk_nil t (n + 1) l⟩
      | cons s' ss =>
          cases whole
          rw [walk_cons, step]
          exact ih (List.append_assoc ..)

/-! ### What names denote -/

/-- The location that names lead to from `l` by way of links, when all that hinders
a walk is passed over: missing entries, entries that are no directories, long names
and too many links. -/
inductive Denotes (t : FileTree) : Location → List Name → Location → Prop where
  | here (l : Location) : Denotes t l [] l
  | stay {l m : Location} {ss : List Name} : Denotes t l ss m → Denotes t l (Path.dot :: ss) m
  | up {l m : Location} {ss : List Name} :
      Denotes t l.dropLast ss m → Denotes t l (Path.dotDot :: ss) m
  | down {l m : Location} {s : Name} {ss : List Name} : s ≠ Path.dot → s ≠ Path.dotDot →
      (∀ target, t.shapeAt (l ++ [s]) ≠ some (.link target)) → Denotes t (l ++ [s]) ss m →
      Denotes t l (s :: ss) m
  | link {l m : Location} {s : Name} {ss : List Name} {target : Path} :
      s ≠ Path.dot → s ≠ Path.dotDot → t.shapeAt (l ++ [s]) = some (.link target) →
      Denotes t (target.origin l) (target.steps ++ ss) m → Denotes t l (s :: ss) m

/-- Two trees have the same links. -/
def SameLinks (t t' : FileTree) : Prop :=
  ∀ l target, t'.shapeAt l = some (.link target) ↔ t.shapeAt l = some (.link target)

/-- What names denote depends on the links alone. -/
theorem Denotes.congr (same : SameLinks t t') (h : t.Denotes l ss m) : t'.Denotes l ss m := by
  induction h with
  | here l => exact .here l
  | stay _ ih => exact .stay ih
  | up _ ih => exact .up ih
  | down notDot notDotDot plain _ ih =>
      exact .down notDot notDotDot (fun target => mt (same _ target).mp (plain target)) ih
  | link notDot notDotDot found _ ih => exact .link notDot notDotDot ((same _ _).mpr found) ih

/-- Names denote at most one location. -/
theorem Denotes.unique {m' : Location} (h : t.Denotes l ss m) (h' : t.Denotes l ss m') : m = m' := by
  induction h with
  | here l => cases h'; rfl
  | stay _ ih =>
      cases h' with
      | stay h' => exact ih h'
      | down notDot => exact absurd rfl notDot
      | link notDot => exact absurd rfl notDot
  | up _ ih =>
      cases h' with
      | up h' => exact ih h'
      | down _ notDotDot => exact absurd rfl notDotDot
      | link _ notDotDot => exact absurd rfl notDotDot
  | down notDot notDotDot plain _ ih =>
      cases h' with
      | stay => exact absurd rfl notDot
      | up => exact absurd rfl notDotDot
      | down _ _ _ h' => exact ih h'
      | link _ _ found => exact absurd found (plain _)
  | link notDot notDotDot found _ ih =>
      cases h' with
      | stay => exact absurd rfl notDot
      | up => exact absurd rfl notDotDot
      | down _ _ plain => exact absurd found (plain _)
      | link _ _ found' h' =>
          cases found.symm.trans found'
          exact ih h'

/-- A walk that succeeds ends where its names denote. -/
theorem Denotes.of_walk (ok : t.walk n l ss = .ok m) : t.Denotes l ss m := by
  rw [walk_eq_ok_iff] at ok
  induction ok with
  | here => exact .here m
  | place step _ ih =>
      obtain ⟨-, steps⟩ := step_eq_ok_iff.mp step
      cases steps with
      | stay => exact .stay ih
      | up => exact .up ih
      | down notDot notDotDot _ found plain =>
          exact .down notDot notDotDot (by simpa [found] using plain) ih
  | link step _ ih =>
      obtain ⟨-, steps⟩ := step_eq_ok_iff.mp step
      cases steps with
      | link notDot notDotDot _ found => exact .link notDot notDotDot found ih

/-- No link stands below a location. -/
def NoLinkBelow (t : FileTree) (l : Location) : Prop :=
  ∀ k target, l <+: k → k ≠ l → t.shapeAt k ≠ some (.link target)

/-- No link stands below a location where names lead, one after the other. -/
def NoLinkAlong (t : FileTree) (l : Location) (ss : List Name) : Prop :=
  ∀ ts target, ts ≠ [] → ts <+: ss → t.shapeAt (l ++ ts) ≠ some (.link target)

theorem NoLinkBelow.along (plain : t.NoLinkBelow l) (ss : List Name) : t.NoLinkAlong l ss := by
  intro ts target some _
  exact plain (l ++ ts) target (List.prefix_append l ts) (by simpa using some)

namespace NoLinkAlong

theorem head (plain : t.NoLinkAlong l (s :: ss)) (target : Path) : t.shapeAt (l ++ [s]) ≠ some (.link target) :=
  plain [s] target (List.cons_ne_nil s []) (List.prefix_append [s] ss)

theorem tail (plain : t.NoLinkAlong l (s :: ss)) : t.NoLinkAlong (l ++ [s]) ss := by
  intro ts target _ within
  rw [List.append_assoc]
  exact plain (s :: ts) target (List.cons_ne_nil s ts) (List.prefix_cons_inj s |>.mpr within)

theorem mono (plain : t.NoLinkAlong l ss) (within : ts <+: ss) : t.NoLinkAlong l ts :=
  fun us target some further => plain us target some (further.trans within)

end NoLinkAlong

/-- Where no link stands on the way, ordinary names denote what they name. -/
theorem Denotes.eq_append (h : t.Denotes l ss m) (plain : t.NoLinkAlong l ss)
    (ordinary : ∀ s ∈ ss, Path.Ordinary s) : m = l ++ ss := by
  induction ss generalizing l with
  | nil => cases h; exact (List.append_nil _).symm
  | cons s ss ih =>
      cases h with
      | stay => exact absurd rfl (ordinary _ List.mem_cons_self).ne_dot
      | up => exact absurd rfl (ordinary _ List.mem_cons_self).ne_dotDot
      | down _ _ _ h =>
          have := ih h plain.tail fun s hs => ordinary s (List.mem_cons_of_mem _ hs)
          simpa using this
      | link _ _ found => exact absurd found (plain.head _)

/-- They do denote it. -/
theorem NoLinkAlong.denotes (plain : t.NoLinkAlong l ss) (ordinary : ∀ s ∈ ss, Path.Ordinary s) :
    t.Denotes l ss (l ++ ss) := by
  induction ss generalizing l with
  | nil => rw [List.append_nil]; exact .here l
  | cons s ss ih =>
      have here := ordinary s List.mem_cons_self
      have rest := ih plain.tail fun m mem => ordinary m (List.mem_cons_of_mem s mem)
      rw [List.append_assoc, List.singleton_append] at rest
      exact .down here.ne_dot here.ne_dotDot plain.head rest

end FileTree

end Sandbox
