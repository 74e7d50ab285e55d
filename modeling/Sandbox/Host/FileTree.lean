import Sandbox.Path

/-!
A file tree: which entry stands at which location.

A location is the list of names from the root. The tree is observed through
`get?`; `insert` and `erase` change one location and leave all others alone.
-/

namespace Sandbox

/-- A place in a file tree, as the names on the way from the root. -/
abbrev Location := List Name

/-- A location stands below another one, and not at it. -/
def Location.IsBelow (k l : Location) : Prop :=
  l <+: k ∧ k ≠ l

instance (k l : Location) : Decidable (k.IsBelow l) :=
  inferInstanceAs (Decidable (l <+: k ∧ k ≠ l))

/-- The two kinds of device node. -/
inductive DeviceKind where
  | character
  | block
  deriving DecidableEq, Repr, Inhabited

/-- Who owns an entry. -/
structure Owner where
  uid : UInt32
  gid : UInt32
  deriving DecidableEq, Repr, Inhabited

/-- The owner of the system's own files. -/
def Owner.root : Owner :=
  ⟨0, 0⟩

/-- What an entry is. -/
inductive Content where
  | directory
  | file (bytes : List UInt8)
  | link (target : Path)
  | device (kind : DeviceKind) (major minor : UInt64)
  deriving DecidableEq, Repr

/-- An entry of a file tree. -/
structure Entry where
  /-- What the entry is. -/
  content : Content
  /-- Who owns it. -/
  owner : Owner
  /-- Its permission bits. -/
  mode : Nat
  deriving DecidableEq, Repr

namespace Entry

/-- The entry is a directory. -/
def isDirectory (e : Entry) : Bool :=
  e.content = .directory

/-- A directory as it is made by default. -/
def newDirectory : Entry :=
  ⟨.directory, .root, 0o755⟩

/-- A file as it is made by default. -/
def newFile (bytes : List UInt8) : Entry :=
  ⟨.file bytes, .root, 0o644⟩

end Entry

/-- The entries of a file tree, each at its location. -/
structure FileTree where
  /-- The entries; of two at one location the first counts. -/
  entries : List (Location × Entry)
  deriving DecidableEq, Repr

namespace FileTree

/-- A tree with nothing but its root. -/
def bare : FileTree :=
  ⟨[([], .newDirectory)]⟩

/-- The entry at a location. -/
def get? (t : FileTree) (l : Location) : Option Entry :=
  t.entries.lookup l

/-- The tree without the entry at a location. -/
def erase (t : FileTree) (l : Location) : FileTree :=
  ⟨t.entries.filter fun e => e.1 ≠ l⟩

/-- The tree with an entry put at a location. -/
def insert (t : FileTree) (l : Location) (e : Entry) : FileTree :=
  ⟨(l, e) :: (t.erase l).entries⟩

/-- The tree with the owner at a location changed. -/
def setOwner (t : FileTree) (l : Location) (owner : Owner) : FileTree :=
  match t.get? l with
  | some e => t.insert l { e with owner }
  | none => t

/-- The tree with all that stands below a location taken from another tree. -/
def withBelow (t : FileTree) (l : Location) (u : FileTree) : FileTree :=
  ⟨(u.entries.filter fun e => e.1.IsBelow l) ++ t.entries.filter fun e => ¬ e.1.IsBelow l⟩

/-- A directory stands at the location. -/
def isDirectory (t : FileTree) (l : Location) : Bool :=
  (t.get? l).any Entry.isDirectory

/-- The number of entries. -/
def size (t : FileTree) : Nat :=
  t.entries.length

private theorem lookup_filter (es : List (Location × Entry)) (P : Location → Bool) (k : Location) :
    (es.filter fun e => P e.1).lookup k = if P k then es.lookup k else none := by
  induction es with
  | nil => simp
  | cons e es ih =>
    obtain ⟨l, e⟩ := e
    rw [List.filter_cons, List.lookup_cons]
    by_cases same : k = l
    · subst same
      by_cases kept : P k = true
      · simp [kept]
      · simpa [kept] using ih
    · have differ : (k == l) = false := by simpa using same
      rw [differ]
      split
      · rw [List.lookup_cons, differ, ih]
      · exact ih

theorem get?_erase (t : FileTree) (l k : Location) :
    (t.erase l).get? k = if k = l then none else t.get? k := by
  have kept := lookup_filter t.entries (fun m => decide (m ≠ l)) k
  rw [get?, erase, kept]
  by_cases same : k = l
  · simp [same]
  · simp [same, get?]

@[simp] theorem get?_erase_self (t : FileTree) (l : Location) : (t.erase l).get? l = none := by
  rw [get?_erase, if_pos rfl]

theorem get?_erase_of_ne (t : FileTree) {l k : Location} (h : k ≠ l) :
    (t.erase l).get? k = t.get? k := by
  rw [get?_erase, if_neg h]

@[simp] theorem get?_insert_self (t : FileTree) (l : Location) (e : Entry) :
    (t.insert l e).get? l = some e := by
  simp [get?, insert]

theorem get?_insert_of_ne (t : FileTree) {l k : Location} (e : Entry) (h : k ≠ l) :
    (t.insert l e).get? k = t.get? k := by
  have : (k == l) = false := by simpa using h
  rw [← get?_erase_of_ne t h, get?, insert, List.lookup_cons, this, get?]

theorem get?_withBelow (t u : FileTree) (k l : Location) :
    (t.withBelow l u).get? k = if k.IsBelow l then u.get? k else t.get? k := by
  have below := lookup_filter u.entries (fun m => decide (m.IsBelow l)) k
  have rest := lookup_filter t.entries (fun m => decide (¬ m.IsBelow l)) k
  rw [get?, withBelow, List.lookup_append, below, rest]
  by_cases inside : k.IsBelow l
  · simp [inside, get?]
  · simp [inside, get?]

/-- The order of two byte strings, by their first difference. -/
def bytesLe : List UInt8 → List UInt8 → Bool
  | [], _ => true
  | _ :: _, [] => false
  | a :: as, b :: bs => a < b || (a = b && bytesLe as bs)

/-- The names in a directory, in the order of their bytes. -/
def namesIn (t : FileTree) (l : Location) : List Name :=
  (t.entries.filterMap fun (k, _) =>
    if k ≠ [] ∧ k.dropLast = l then k.getLast? else none).mergeSort bytesLe

/-- The entries at and below a location, each directory before what it holds.
`enter` says into which directories to go, by their name, and `fuel` how deep. -/
def listing (t : FileTree) (enter : Name → Bool) : Nat → Location → List (Location × Entry)
  | 0, _ => []
  | fuel + 1, l =>
    match t.get? l with
    | none => []
    | some e =>
      (l, e) ::
        if e.isDirectory && (l.getLast?.all enter) then
          (t.namesIn l).flatMap fun n => listing t enter fuel (l ++ [n])
        else []

end FileTree

end Sandbox
