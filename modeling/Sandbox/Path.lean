import Sandbox.Text.Utf8
import Sandbox.Text.Separated

/-!
Paths, as the bytes they are written with.

A path is kept exactly as written. Its meaning for naming, joining and comparing
is its list of `components`: repeated and trailing separators are skipped, and so
is every `.` but one that begins a relative path. Nothing here looks at a file
system; a `..` is a component like any other.
-/

namespace Sandbox

/-- One name between separators. -/
abbrev Name := List UInt8

/-- A path, as written. -/
structure Path where
  /-- The bytes of the path. -/
  bytes : List UInt8
  deriving DecidableEq, Repr, Inhabited

namespace Path

/-- The separator `/`. -/
def separator : UInt8 := 0x2F

/-- The name `.`. -/
def dot : Name := [0x2E]

/-- The name `..`. -/
def dotDot : Name := [0x2E, 0x2E]

/-- The empty path. -/
def empty : Path :=
  ⟨[]⟩

/-! ### Text -/

/-- The path written as a text. -/
def ofString (s : String) : Path :=
  ⟨Utf8.encode s.toList⟩

/-- The path as a text, if its bytes are well-formed. -/
def text? (p : Path) : Option String :=
  (Utf8.decode? p.bytes).map .ofList

/-- The path as shown in messages and documents. -/
def display (p : Path) : String :=
  .ofList (Utf8.display p.bytes)

@[simp] theorem display_ofString (s : String) : (ofString s).display = s := by
  simp [display, ofString]

@[simp] theorem text?_ofString (s : String) : (ofString s).text? = some s := by
  simp [text?, ofString]

/-! ### Segments -/

/-- What stands between separators; neighbouring separators enclose an empty
segment. -/
def split (bs : List UInt8) : List Name :=
  Separated.split separator bs

/-- Segments with separators between them. -/
def unsplit (ss : List Name) : List UInt8 :=
  Separated.join separator ss

/-- The path along names from the root. -/
def ofNames (ns : List Name) : Path :=
  ⟨separator :: unsplit ns⟩

/-- The path begins at the root. -/
def isAbsolute (p : Path) : Bool :=
  p.bytes.head? = some separator

/-- A separator stands at the end. -/
def hasTrailingSeparator (p : Path) : Bool :=
  p.bytes.getLast? = some separator

/-! ### Components -/

/-- A part of a path that names something. -/
inductive Component where
  /-- The root, at the start of an absolute path. -/
  | root
  /-- A `.` at the start of a relative path. -/
  | current
  /-- A `..`. -/
  | parent
  /-- Any other name. -/
  | normal (name : Name)
  deriving DecidableEq, Repr

/-- The component is an ordinary name. -/
def Component.isNormal : Component → Bool
  | .normal _ => true
  | _ => false

/-- The name of an ordinary component. -/
def Component.name? : Component → Option Name
  | .normal n => some n
  | _ => none

/-- The segment names nothing: it is empty or `.`. -/
def isSkipped (s : Name) : Bool :=
  s = [] || s = dot

/-- The component of a segment that is not the first of a relative path. -/
def innerComponent? (s : Name) : Option Component :=
  if isSkipped s then none
  else if s = dotDot then some .parent
  else some (.normal s)

/-- The component of the first segment. The first segment of an absolute path is
empty. -/
def firstComponent? (p : Path) (s : Name) : Option Component :=
  if p.isAbsolute then some .root
  else if s = dot then some .current
  else innerComponent? s

/-- The components, in order. -/
def components (p : Path) : List Component :=
  match split p.bytes with
  | [] => []
  | s :: ss => (p.firstComponent? s).toList ++ ss.filterMap innerComponent?

/-- The last component, if it is an ordinary name. -/
def fileName? (p : Path) : Option Name :=
  p.components.getLast?.bind Component.name?

/-- Drops skipped segments from the end. -/
def trimSkipped (ss : List Name) : List Name :=
  (ss.reverse.dropWhile isSkipped).reverse

/-- The path without its last component, kept as written up to there. The root
and the empty path have none. -/
def parent? (p : Path) : Option Path :=
  match split p.bytes with
  | [] => none
  | s :: ss =>
    match trimSkipped ss with
    | [] => if p.isAbsolute || s = [] then none else some empty
    | ss =>
      match trimSkipped ss.dropLast with
      | [] => if p.isAbsolute then some ⟨[separator]⟩ else some ⟨s⟩
      | ss => some ⟨unsplit (s :: ss)⟩

/-- The path followed by another one. An absolute one stands for itself. -/
def join (p q : Path) : Path :=
  if q.isAbsolute then q
  else if p.bytes = [] || p.hasTrailingSeparator then ⟨p.bytes ++ q.bytes⟩
  else ⟨p.bytes ++ separator :: q.bytes⟩

/-- The path followed by one name. -/
def child (p : Path) (n : Name) : Path :=
  p.join ⟨n⟩

/-- The path followed by one name, given as a text. -/
def childText (p : Path) (s : String) : Path :=
  p.join (ofString s)

/-- What follows a prefix in a list. -/
def stripPrefix? [DecidableEq α] : List α → List α → Option (List α)
  | [], l => some l
  | _ :: _, [] => none
  | a :: as, b :: bs => if a = b then stripPrefix? as bs else none

/-- The components of the path below `base`, if the path begins with those of
`base`. -/
def below? (p base : Path) : Option (List Component) :=
  stripPrefix? base.components p.components

/-- The path and its parents, from the longest, up to the point where nothing is
left to name. `fuel` bounds their number. -/
def ancestorsUpTo : Nat → Path → List Path
  | 0, _ => []
  | fuel + 1, p =>
    match p.parent? with
    | none => []
    | some q => p :: ancestorsUpTo fuel q

/-- The path and its parents that name something other than the root or the
current directory. -/
def ancestors (p : Path) : List Path :=
  ancestorsUpTo p.bytes.length p

theorem stripPrefix?_eq_some_iff [DecidableEq α] {p l r : List α} :
    stripPrefix? p l = some r ↔ l = p ++ r := by
  induction p generalizing l with
  | nil => simp [stripPrefix?, eq_comm]
  | cons a as ih =>
    cases l with
    | nil => simp [stripPrefix?]
    | cons b bs =>
      by_cases h : a = b
      · simp [stripPrefix?, h, ih]
      · simp [stripPrefix?, h, Ne.symm h]

end Path

end Sandbox
