import Sandbox.Host.Basic
import Sandbox.Error

/-!
Directories below a base, each made and handed over in turn.

The base itself is made if it is missing, and its owner is left alone. Nothing
outside the base is touched, except what is missing above it.
-/

namespace Sandbox

/-- The names below the base on the way to a path. -/
def segmentsBelow (base p : Path) : Except ConfigError (List Name) :=
  match p.below? base with
  | none => .error (.outside p base)
  | some cs =>
    if cs.all Path.Component.isNormal then .ok (cs.filterMap Path.Component.name?)
    else .error (.escapes p base)

/-- Makes a directory, or finds it, and hands it over if `owner` says to whom. -/
def ensureOwnedDirectory (h : Host) (p : Path) (owner : Option Owner) : Except Error Host :=
  match h.ensureDirectory p with
  | .error e => .error (.io p e)
  | .ok h =>
    match owner with
    | some o => .ok (h.tryChangeOwner p o.uid o.gid)
    | none => .ok h

/-- Makes the directories named one below the other. The first failure ends the
run, and what was done before it stays. -/
def ensureChain (owner : Option Owner) : Host → Path → List Name → Except Error Unit × Host
  | h, _, [] => (.ok (), h)
  | h, dir, n :: ns =>
    let p := dir.child n
    match ensureOwnedDirectory h p owner with
    | .error e => (.error e, h)
    | .ok h => ensureChain owner h p ns

/-- Whom directories are handed to: nobody, if one of the numbers is zero. -/
def newOwner (uid gid : UInt32) : Option Owner :=
  if uid ≠ 0 ∧ gid ≠ 0 then some ⟨uid, gid⟩ else none

/-- Makes the directories from below the base to the path. -/
def createDirectories (h : Host) (base p : Path) (uid gid : UInt32) : Except Error Unit × Host :=
  match segmentsBelow base p with
  | .error e => (.error (.config e), h)
  | .ok names =>
    match h.makeDirectories base with
    | (.error e, h) => (.error (.io base e), h)
    | (.ok (), h) => ensureChain (newOwner uid gid) h base names

end Sandbox
