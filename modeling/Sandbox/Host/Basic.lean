import Sandbox.Host.Walk

/-!
The host: a file tree, the directory a process runs in, what is mounted, and what
the process may do.

The tree is the one that is seen, through what is mounted. An operation reads and
changes it where it is seen. One thing is assumed of mounts by this: below a mount
point entries are kept where they are seen. That the system keeps them on the
writable layer, and shows there and below other mount points what becomes of them, is
not followed, but for the owner of a mount point (`Host.ownerLocation`).

Every operation is a function of the host. One that can fail returns the new host
only when it succeeds, so a failed operation changes nothing.
-/

namespace Sandbox

/-- What a process may do beyond reading and writing as the owner of all files. -/
structure Privileges where
  /-- Change owners. -/
  changeOwner : Bool
  /-- Mount and unmount. -/
  mount : Bool
  /-- Make device nodes. -/
  makeDevice : Bool
  deriving DecidableEq, Repr

/-- A process that may do everything. -/
def Privileges.all : Privileges :=
  ⟨true, true, true⟩

/-- A process confined to reading and writing. -/
def Privileges.confined : Privileges :=
  ⟨false, false, false⟩

/-- A mounted overlay. -/
structure OverlayMount where
  /-- The directory it is mounted on. -/
  point : Location
  /-- The writable layer, whose owner and mode the mounted root shows. -/
  upper : Location
  /-- The layers that are only read, the topmost first. -/
  lowers : List Location := []
  /-- The directory that the system works in while it is mounted. -/
  work : Location := []
  /-- What stood below the mount point before. -/
  covered : FileTree := ⟨[]⟩
  deriving DecidableEq, Repr

/-- The state that operations read and change. -/
structure Host where
  /-- All files, as they are seen. -/
  tree : FileTree
  /-- The directory that relative paths start from. -/
  workingDirectory : Location
  /-- The overlays mounted now whose layers are in the tree, the latest first. -/
  mounts : List OverlayMount
  /-- What the process may do. -/
  privileges : Privileges
  deriving DecidableEq, Repr

namespace Host

/-! ### Looking -/

/-- The location a path leads to. -/
def resolve (h : Host) (p : Path) : Except IoFailure Location :=
  if p.hasZeroByte then .error .zeroByte
  else (h.tree.resolve h.workingDirectory p).mapError .system

/-- A path up to its last segment. -/
def lastStep (h : Host) (p : Path) : Except IoFailure FileTree.LastStep :=
  if p.hasZeroByte then .error .zeroByte
  else (h.tree.lastStep h.workingDirectory p).mapError .system

/-- The path leads to a directory. -/
def isDirectory (h : Host) (p : Path) : Bool :=
  match h.resolve p with
  | .ok l => h.tree.isDirectory l
  | .error _ => false

/-- The path leads to an entry of any kind. -/
def leadsSomewhere (h : Host) (p : Path) : Bool :=
  (h.resolve p).toOption.any fun l => (h.tree.get? l).isSome

/-- The entry a path leads to. -/
def entryAt (h : Host) (p : Path) : Except IoFailure Entry :=
  match h.resolve p with
  | .error e => .error e
  | .ok l =>
    match h.tree.get? l with
    | some e => .ok e
    | none => .error (.system .noEntry)

/-- The location of what a path names, a link at its end not followed. -/
def locate? (h : Host) (p : Path) : Option Location :=
  match h.lastStep p with
  | .ok (.name dir n false) =>
    let l := dir ++ [n]
    (h.tree.get? l).map fun _ => l
  | .ok _ => (h.resolve p).toOption
  | .error _ => none

/-! ### Reading -/

/-- Opens what a path leads to for reading. -/
def openForReading (h : Host) (p : Path) : Except IoFailure Content :=
  match h.entryAt p with
  | .error e => .error e
  | .ok e =>
    match e.content with
    | .device .character 1 n => if n = 3 ∨ n = 5 ∨ n = 7 then .ok e.content else .error (.system .noDevice)
    | .device .. => .error (.system .noDevice)
    | c => .ok c

/-- Reads what was opened. The null device is empty; the devices that yield zeros
without end are read as one zero. -/
def readContent : Content → Except Errno (List UInt8)
  | .directory => .error .isDirectory
  | .file bytes => .ok bytes
  | .link _ => .error .tooManyLinks
  | .device .character 1 3 => .ok []
  | .device .. => .ok [0]

/-! ### Directories -/

/-- Makes one directory. -/
def makeDirectory (h : Host) (p : Path) : Except IoFailure Host :=
  match h.lastStep p with
  | .error e => .error e
  | .ok .special => .error (.system .alreadyExists)
  | .ok (.name dir n _) =>
    match h.tree.get? (dir ++ [n]) with
    | some _ => .error (.system .alreadyExists)
    | none => .ok { h with tree := h.tree.insert (dir ++ [n]) .newDirectory }

/-- Makes one directory, content to find one there already. -/
def ensureDirectory (h : Host) (p : Path) : Except IoFailure Host :=
  match h.makeDirectory p with
  | .ok h' => .ok h'
  | .error e =>
    if e = .system .alreadyExists ∧ h.isDirectory p = true then .ok h else .error e

/-- Ensures directories one after the other. The first failure ends the run, and
what was made before it stays. -/
def ensureEach : Host → List Path → Except IoFailure Unit × Host
  | h, [] => (.ok (), h)
  | h, p :: ps =>
    match h.ensureDirectory p with
    | .ok h' => ensureEach h' ps
    | .error e => (.error e, h)

/-- The paths that are tried and found to lack a parent, the longest first, and
the outcome of the first one that is not. -/
def missingAncestors (h : Host) : List Path → List Path × Except IoFailure Host
  | [] => ([], .ok h)
  | p :: ps =>
    match h.ensureDirectory p with
    | .ok h' => ([], .ok h')
    | .error e =>
      if e = .system .noEntry then
        let (missing, outcome) := missingAncestors h ps
        (p :: missing, outcome)
      else ([], .error e)

/-- Makes a directory and all that is missing above it. -/
def makeDirectories (h : Host) (p : Path) : Except IoFailure Unit × Host :=
  let (missing, outcome) := h.missingAncestors p.ancestors
  match outcome with
  | .error e => (.error e, h)
  | .ok h' => h'.ensureEach missing.reverse

/-! ### Owners -/

/-- The id that leaves an owner as it is. -/
def unchangedId : UInt32 := 0xFFFFFFFF

/-- The owner after handing an entry over. -/
def handOver (owner : Owner) (uid gid : UInt32) : Owner :=
  ⟨if uid = unchangedId then owner.uid else uid, if gid = unchangedId then owner.gid else gid⟩

/-- Where the owner of a location is kept: on the writable layer if an overlay is
mounted there. Both have to be directories, or the overlay shows nothing. -/
def ownerLocation (h : Host) (l : Location) : Location :=
  match h.mounts.find? (·.point = l) with
  | some m => if h.tree.isDirectory l && h.tree.isDirectory m.upper then m.upper else l
  | none => l

/-- Changes the owner of what a path leads to. -/
def changeOwner (h : Host) (p : Path) (uid gid : UInt32) : Except IoFailure Host :=
  match h.resolve p with
  | .error e => .error e
  | .ok l =>
    let l := h.ownerLocation l
    match h.tree.get? l with
    | none => .error (.system .noEntry)
    | some e =>
      if h.privileges.changeOwner then
        .ok { h with tree := h.tree.setOwner l (handOver e.owner uid gid) }
      else .error (.system .notPermitted)

/-- Changes the owner if that is possible. -/
def tryChangeOwner (h : Host) (p : Path) (uid gid : UInt32) : Host :=
  (h.changeOwner p uid gid).toOption.getD h

/-! ### Replacing a file -/

/-- The names tried for a temporary file: they end in six digits or more. -/
def temporaryName (k : Nat) : Name :=
  let digits := Nat.toDigits 10 k
  Utf8.encode (".config.".toList ++ List.replicate (6 - digits.length) '0' ++ digits)

/-- A name that is not taken in a directory. Of `n + 1` names one is free when the
tree has `n` entries. -/
def freeName? (t : FileTree) (dir : Location) : Option Name :=
  ((List.range (t.size + 1)).map temporaryName).find? fun n => (t.get? (dir ++ [n])).isNone

/-- The path by which the system is asked for a temporary file in a directory. It
begins at the root, so that the file is found again from any working directory. -/
def temporaryPath (h : Host) (dir : Path) : Path :=
  ((Path.ofNames h.workingDirectory).join dir).child (temporaryName 0)

/-- The location of the directory a temporary file is made in; the empty path is the
working directory. -/
def temporaryDirectory (h : Host) (p : Path) : Except IoFailure Location :=
  if p.hasZeroByte then .error .zeroByte
  else if maxPathLength < (h.temporaryPath p).bytes.length then .error (.system .nameTooLong)
  else
    match h.tree.walk maxLinks (p.origin h.workingDirectory) p.steps with
    | .error e => .error (.system e)
    | .ok l => if h.tree.isDirectory l then .ok l else .error (.system .notDirectory)

/-- Makes a temporary file with some content in a directory. -/
def makeTemporary (h : Host) (dir : Path) (bytes : List UInt8) : Except IoFailure (Location × Host) :=
  match h.temporaryDirectory dir with
  | .error e => .error e
  | .ok l =>
    match freeName? h.tree l with
    | none => .error (.system .alreadyExists)
    | some n =>
      let file := l ++ [n]
      .ok (file, { h with tree := h.tree.insert file { Entry.newFile bytes with mode := 0o600 } })

/-- Sets the permission bits at a location. -/
def setMode (h : Host) (l : Location) (mode : Nat) : Host :=
  match h.tree.get? l with
  | some e => { h with tree := h.tree.insert l { e with mode } }
  | none => h

/-- Removes the entry at a location. -/
def removeEntry (h : Host) (l : Location) : Host :=
  { h with tree := h.tree.erase l }

/-- Moves a file to where a path points, in place of the file or link there. -/
def moveFile (h : Host) (file : Location) (p : Path) : Except IoFailure Host :=
  if p.hasZeroByte then .error (.system .invalidArgument)
  else
    match h.lastStep p with
    | .error e => .error e
    | .ok .special => .error (.system .busy)
    | .ok (.name dir n demandsDirectory) =>
      let target := dir ++ [n]
      if demandsDirectory then .error (.system .notDirectory)
      else if h.tree.isDirectory target then .error (.system .isDirectory)
      else
        match h.tree.get? file with
        | none => .error (.system .noEntry)
        | some e => .ok { h with tree := (h.tree.erase file).insert target e }

/-! ### Arranging files -/

/-- Writes a file, making it if nothing is there. -/
def writeFile (h : Host) (p : Path) (bytes : List UInt8) : Except IoFailure Host :=
  match h.resolve p with
  | .ok l =>
    match h.tree.get? l with
    | some e =>
      match e.content with
      | .directory => .error (.system .isDirectory)
      | .file _ => .ok { h with tree := h.tree.insert l { e with content := .file bytes } }
      | _ => .ok h
    | none => .error (.system .noEntry)
  | .error (.system .noEntry) =>
    match h.lastStep p with
    | .error e => .error e
    | .ok (.name dir n false) =>
      match h.tree.get? (dir ++ [n]) with
      | none => .ok { h with tree := h.tree.insert (dir ++ [n]) (.newFile bytes) }
      | some _ => .error (.system .noEntry)
    | .ok _ => .error (.system .isDirectory)
  | .error e => .error e

/-- Makes an entry where nothing stands. -/
def makeEntry (h : Host) (p : Path) (e : Entry) : Except IoFailure Host :=
  match h.lastStep p with
  | .error e => .error e
  | .ok (.name dir n false) =>
    match h.tree.get? (dir ++ [n]) with
    | none => .ok { h with tree := h.tree.insert (dir ++ [n]) e }
    | some _ => .error (.system .alreadyExists)
  | .ok _ => .error (.system .alreadyExists)

/-- Makes a symbolic link. -/
def makeLink (h : Host) (p target : Path) : Except IoFailure Host :=
  h.makeEntry p ⟨.link target, .root, 0o777⟩

/-- Makes a device node. -/
def makeDevice (h : Host) (p : Path) (kind : DeviceKind) (major minor : UInt64) : Except IoFailure Host :=
  if h.privileges.makeDevice then h.makeEntry p ⟨.device kind major minor, .root, 0o600⟩
  else .error (.system .notPermitted)

/-- Removes what a path names and everything below it. -/
def remove (h : Host) (l : Location) : Host :=
  { h with tree := ⟨h.tree.entries.filter fun e => !l.isPrefixOf e.1⟩ }

end Host

end Sandbox
