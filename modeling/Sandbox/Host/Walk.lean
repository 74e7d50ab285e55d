import Sandbox.Host.Failure
import Sandbox.Host.FileTree

/-!
Walking a file tree along a path.

A walk starts at a directory and takes one segment after the other. A symbolic
link on the way is replaced by the segments of its target, at most forty times in
one walk. `resolve` follows a path to its end; `lastStep` stops before the last
name, for operations that make, replace or remove what the name stands for.
-/

namespace Sandbox

/-- Where one step of a walk leads. -/
inductive Step where
  /-- To a location. -/
  | place (l : Location)
  /-- To a symbolic link, whose target is looked up from a directory. -/
  | link (dir : Location) (target : Path)
  deriving Repr

/-- The longest name an entry can have, in bytes. -/
def maxNameLength : Nat := 255

/-- The longest path that can be handed to the system, in bytes. -/
def maxPathLength : Nat := 4095

/-- How many links one walk may follow. -/
def maxLinks : Nat := 40

namespace Path

/-- The segments a walk takes. A separator at the end demands a directory, as a
`.` there does. -/
def steps (p : Path) : List Name :=
  let named := (split p.bytes).filter (· ≠ [])
  if p.hasTrailingSeparator then named ++ [dot] else named

/-- The location a walk along the path starts at. -/
def origin (p : Path) (dir : Location) : Location :=
  if p.isAbsolute then [] else dir

/-- The path holds a zero byte. -/
def hasZeroByte (p : Path) : Bool :=
  p.bytes.contains 0

end Path

namespace FileTree

/-- One step from `l`, which has to be a directory. -/
def step (t : FileTree) (l : Location) (s : Name) : Except Errno Step :=
  if t.isDirectory l then
    if s = Path.dot then .ok (.place l)
    else if s = Path.dotDot then .ok (.place l.dropLast)
    else if maxNameLength < s.length then .error .nameTooLong
    else
      match t.get? (l ++ [s]) with
      | none => .error .noEntry
      | some e =>
        match e.content with
        | .link target => .ok (.link l target)
        | _ => .ok (.place (l ++ [s]))
  else .error .notDirectory

/-- A walk that hands over to `follow` at the first link. -/
def walkFrom (t : FileTree) (follow : Location → List Name → Except Errno Location) :
    Location → List Name → Except Errno Location
  | l, [] => .ok l
  | l, s :: ss =>
    match t.step l s with
    | .error e => .error e
    | .ok (.place m) => walkFrom t follow m ss
    | .ok (.link dir target) => follow (target.origin dir) (target.steps ++ ss)

/-- A walk that follows up to `links` links. -/
def walk (t : FileTree) : Nat → Location → List Name → Except Errno Location
  | 0 => t.walkFrom fun _ _ => .error .tooManyLinks
  | links + 1 => t.walkFrom (walk t links)

/-- The location a path leads to, links followed, seen from directory `dir`. -/
def resolve (t : FileTree) (dir : Location) (p : Path) : Except Errno Location :=
  if p.bytes = [] then .error .noEntry
  else if maxPathLength < p.bytes.length then .error .nameTooLong
  else t.walk maxLinks (p.origin dir) p.steps

/-- The end of a walk that stops before the last segment. -/
inductive LastStep where
  /-- The path ends with a name in a directory; `demandsDirectory` if a separator
  follows it. -/
  | name (dir : Location) (name : Name) (demandsDirectory : Bool)
  /-- The path ends with the root, a `.` or a `..`. -/
  | special
  deriving Repr

/-- Walks up to the last segment of a path, which is not looked up. -/
def lastStep (t : FileTree) (dir : Location) (p : Path) : Except Errno LastStep :=
  if p.bytes = [] then .error .noEntry
  else if maxPathLength < p.bytes.length then .error .nameTooLong
  else
    let named := (Path.split p.bytes).filter (· ≠ [])
    match named.getLast? with
    | none => .ok .special
    | some last =>
      match t.walk maxLinks (p.origin dir) named.dropLast with
      | .error e => .error e
      | .ok l =>
        if !t.isDirectory l then .error .notDirectory
        else if last = Path.dot ∨ last = Path.dotDot then .ok .special
        else if maxNameLength < last.length then .error .nameTooLong
        else .ok (.name l last p.hasTrailingSeparator)

end FileTree

end Sandbox
