import Sandbox.Host.Basic

/-!
The part of a system that mounts overlays and unmounts them.

A program names the layers of an overlay in a text of options and asks for it to be
mounted on what a path leads to. How the system answers is its own affair: `Kernel` is
any answer. The one that is executed is `Kernel.overlay`. It takes options apart at their
commas and colons, empties the place below the work directory that it works in, and shows
the layers below the mount point, the writable one on top and behind it the others in the
order of the options. What stood below the mount point is put aside with the mount, and
comes back when it is unmounted.
-/

namespace Sandbox

open Sandbox.Path

/-! ### What layers show -/

namespace Entry

/-- The entry hides an entry of its name on the layers below. -/
def isWhiteout (e : Entry) : Bool :=
  e.content = .device .character 0 0

end Entry

namespace FileTree

/-- What layers show below them under some names, the first layer on top. Directories of
one name are shown as one. Anything else hides what the layers below have of its name. -/
def shown (t : FileTree) : List Location → List Name → Option Entry
  | _, [] => none
  | layers, n :: ns =>
    let found := layers.filterMap fun l => (t.get? (l ++ [n])).map fun e => (l ++ [n], e)
    if ns = [] then (found.head?.map (·.2)).filter (!·.isWhiteout)
    else t.shown ((found.takeWhile (·.2.isDirectory)).map (·.1)) ns

/-- The entries that layers show, each at its place below a mount point. -/
def overlaid (t : FileTree) (layers : List Location) (point : Location) : FileTree where
  entries := layers.flatMap fun l => t.entries.filterMap fun (k, _) => do
    let names ← stripPrefix? l k
    let e ← t.shown layers names
    return (point ++ names, e)

/-- The tree with an empty place to work in below a work directory. Nobody but the
system is let in there. -/
def clearWork (t : FileTree) (work : Location) : FileTree :=
  let place := work ++ [Utf8.encode "work".toList]
  (t.withBelow place ⟨[]⟩).insert place ⟨.directory, .root, 0⟩

end FileTree

/-! ### Kernels -/

/-- A system, as far as it mounts and unmounts. It may do so much of what it was asked
before it fails that the host is not as it was. -/
structure Kernel where
  /-- Mounts an overlay with some options on what a path leads to. -/
  mount : Host → String → Path → Except IoFailure Unit × Host
  /-- Unmounts what is mounted on what a path leads to. -/
  unmount : Host → Path → Except IoFailure Host

/-- The layers, the upper and the work directory that options name. -/
def readOptions (s : String) : Option (List Path × Path × Path) :=
  match Separated.split ',' s.toList with
  | [lower, upper, work] => do
    let lower ← stripPrefix? "lowerdir=".toList lower
    let upper ← stripPrefix? "upperdir=".toList upper
    let work ← stripPrefix? "workdir=".toList work
    return ((Separated.split ':' lower).map fun cs => ofString (.ofList cs), ofString (.ofList upper),
      ofString (.ofList work))
  | _ => none

namespace Host

/-- Where the directories lead that options name. -/
def locateLayers (h : Host) (options : String) : Except IoFailure (List Location × Location × Location) :=
  match readOptions options with
  | none => .error (.system .invalidArgument)
  | some (lowers, upper, work) => do
    let lowers ← lowers.mapM h.resolve
    let upper ← h.resolve upper
    let work ← h.resolve work
    return (lowers, upper, work)

/-- The host with an overlay mounted at a location. -/
def withOverlay (h : Host) (point : Location) (lowers : List Location) (upper work : Location) : Host :=
  let t := h.tree.clearWork work
  { h with
    tree := t.withBelow point (t.overlaid (upper :: lowers) point)
    mounts := ⟨point, upper, lowers, work, t⟩ :: h.mounts }

/-- Mounts an overlay. All that the options name, and the mount point, have to be
directories. -/
def mountOverlay (h : Host) (options : String) (p : Path) : Except IoFailure Unit × Host :=
  match h.resolve p, h.locateLayers options with
  | .error e, _ => (.error e, h)
  | _, .error e => (.error e, h)
  | .ok point, .ok (lowers, upper, work) =>
    if !h.privileges.mount then (.error (.system .notPermitted), h)
    else if (point :: upper :: work :: lowers).all h.tree.isDirectory then
      (.ok (), h.withOverlay point lowers upper work)
    else (.error (.system .invalidArgument), h)

/-- Unmounts the topmost overlay on what a path leads to, and with it what is mounted
within it. One that is hidden by an overlay above it is not found. -/
def unmountOverlay (h : Host) (p : Path) : Except IoFailure Host :=
  match h.resolve p with
  | .error e => .error e
  | .ok l =>
    if !h.privileges.mount then .error (.system .notPermitted)
    else
      let elsewhere (m : OverlayMount) : Bool := !m.point.isPrefixOf l
      match h.mounts.dropWhile elsewhere with
      | [] => .error (.system .invalidArgument)
      | m :: others =>
        if m.point = l then
          .ok { h with
            tree := h.tree.withBelow l m.covered
            mounts := (h.mounts.takeWhile elsewhere).filter (¬ ·.point.IsBelow l) ++ others }
        else .error (.system .invalidArgument)

end Host

/-- The kernel that mounts overlays. -/
def Kernel.overlay : Kernel where
  mount := Host.mountOverlay
  unmount := Host.unmountOverlay

end Sandbox
