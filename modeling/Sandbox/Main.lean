import Sandbox.Accounts.Database
import Sandbox.CommandLine.Footprint

/-!
The program.

What a command looks at is read from the real files into a host, the command is
carried out there, and the files and directories it made are written back. Owners
and mounts are beyond this program's privileges.
-/

namespace Sandbox.Main

/-- The text of a location. -/
def shown (l : Location) : String :=
  "/" ++ "/".intercalate (l.map fun n => .ofList (Utf8.display n))

/-- The result of an action, if it has one. -/
def tried (action : IO α) : IO (Option α) := do
  try return some (← action) catch _ => return none

/-- The lines of a device's description, each a name and a value. -/
def describes (description : String) (name value : String) : Bool :=
  (Separated.split '\n' description.toList).contains (name ++ "=" ++ value).toList

/-- The device nodes of a kind that have a name, by their numbers. -/
def deviceNumbers (directory name : String) : IO (Option (UInt64 × UInt64)) := do
  let entries := (← tried do (← IO.FS.realPath directory).readDir).getD #[]
  for entry in entries do
    let description := (← tried (IO.FS.readFile (directory ++ "/" ++ entry.fileName ++ "/uevent"))).getD ""
    if describes description "DEVNAME" name then
      match (Separated.split ':' entry.fileName.toList).map fun ds => (String.ofList ds).toNat? with
      | [some major, some minor] => return some (.ofNat major, .ofNat minor)
      | _ => pure ()
  return none

/-- The device node at a location. -/
def device? : Location → IO (Option Content)
  | dir :: names => do
    if shown [dir] ≠ "/dev" then return none
    let name := "/".intercalate (names.map fun n => .ofList (Utf8.display n))
    if let some (major, minor) ← deviceNumbers "/sys/dev/char" name then
      return some (.device .character major minor)
    if let some (major, minor) ← deviceNumbers "/sys/dev/block" name then
      return some (.device .block major minor)
    return none
  | [] => return none

/-- What really stands at a location whose directory holds no links. -/
def content? (l : Location) : IO (Option Content) := do
  let path := shown l
  match ← tried (IO.FS.realPath path) with
  | none => return none
  | some real =>
    if real.toString ≠ path then return some (.link (.ofString real.toString))
    if ← real.isDir then return some .directory
    if let some node ← device? l then return some node
    let bytes ← tried (IO.FS.readBinFile path)
    return bytes.map fun b => .file b.toList

/-- Reads what stands on the way from a location, links followed, into the host. -/
def observe : Nat → Host → Location → List Name → IO Host
  | 0, h, _, _ => return h
  | _, h, _, [] => return h
  | fuel + 1, h, l, s :: ss => do
    if s = Path.dot then observe fuel h l ss
    else if s = Path.dotDot then observe fuel h l.dropLast ss
    else
      let next := l ++ [s]
      let known ← match h.tree.get? next with
        | some e => pure (some e.content)
        | none => content? next
      match known with
      | none => return h
      | some content =>
        let h := { h with tree := h.tree.insert next ⟨content, .root, 0o755⟩ }
        match content with
        | .link target => observe fuel h (target.origin l) (target.steps ++ ss)
        | _ => observe fuel h next ss

/-- Reads what stands on the way along paths into the host. -/
def observeAll (h : Host) (paths : List Path) : IO Host :=
  paths.foldlM (fun h p => observe 200 h (p.origin h.workingDirectory) p.steps) h

/-- The host as far as a command line is concerned. The configuration names files
and these name others, so three readings are enough. -/
def hostFor (i : CommandLine.Invocation) : IO Host := do
  let cwd ← IO.currentDir
  let dir := Path.steps (.ofString cwd.toString)
  let mut h : Host := ⟨.bare, dir, [], .confined⟩
  h ← observe 200 h [] dir
  for _ in [0:3] do
    h ← observeAll h (i.footprint h)
  return h

/-- Writes one entry that a command made. -/
def writeBack (l : Location) (e : Entry) : IO Unit := do
  let path := shown l
  match e.content with
  | .directory => IO.FS.createDir path
  | .file bytes =>
    let temporary := shown (l.dropLast ++ [Host.temporaryName (← IO.monoNanosNow)])
    IO.FS.writeBinFile temporary ⟨bytes.toArray⟩
    IO.FS.rename temporary path
  | _ => pure ()

/-- Writes back what a command made or changed, directories before what they
hold. -/
def writeBackAll (before after : FileTree) : IO Unit := do
  let made := after.entries.filter fun (l, e) => before.get? l ≠ some e
  for (l, e) in made.mergeSort fun a b => a.1.length ≤ b.1.length do
    writeBack l e

/-- The accounts of the system. -/
def systemAccounts : IO Accounts := do
  let users := (← tried (IO.FS.readFile "/etc/passwd")).getD ""
  let groups := (← tried (IO.FS.readFile "/etc/group")).getD ""
  return .ofDatabases users groups

/-- Carries out a command line and gives the exit code. -/
def carryOut (i : CommandLine.Invocation) : IO UInt32 := do
  let h ← hostFor i
  let (result, after) := i.run h (← systemAccounts)
  writeBackAll h.tree after.tree
  match result with
  | .ok line =>
    if let some line := line then IO.println line
    return 0
  | .error f =>
    IO.eprintln ("Error: " ++ ": ".intercalate (f.chain IoFailure.message))
    return 1

end Sandbox.Main

/-- Reads the command line and carries it out. -/
def main (words : List String) : IO UInt32 := do
  match Sandbox.CommandLine.read (← IO.getEnv "APPCELL_CONFIG") words with
  | .ok i => Sandbox.Main.carryOut i
  | .error usage =>
    IO.eprintln usage.message
    return .ofNat usage.exitCode
