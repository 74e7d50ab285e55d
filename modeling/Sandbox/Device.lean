import Sandbox.Host.Document
import Sandbox.Json.Record

/-!
Device nodes, with the numbers that the system has given them.
-/

namespace Sandbox

namespace DeviceKind

/-- The letter for a kind in a specification. -/
def code : DeviceKind → String
  | character => "c"
  | block => "b"

/-- The word for a kind. -/
def word : DeviceKind → String
  | character => "character"
  | block => "block"

/-- The name of a kind in a document. -/
def name : DeviceKind → String
  | character => "Character"
  | block => "Block"

/-- A kind in a document. -/
def decoder : Decoder DeviceKind :=
  .enumeration [(character.name, character), (block.name, block)]

/-- A kind as a document. -/
def toJson (k : DeviceKind) : Json :=
  .str k.name

end DeviceKind

/-- A device node. -/
structure Device where
  path : Path
  kind : DeviceKind
  major : UInt64
  minor : UInt64
  deriving DecidableEq, Repr

namespace Device

/-- The fields of a device node in a document. -/
def record : Record Device :=
  Device.mk
    <$> .required "path" Decoder.path
    <*> .required "kind" DeviceKind.decoder
    <*> .required "major" Decoder.uint64
    <*> .required "minor" Decoder.uint64

/-- A device node in a document. -/
def decoder : Decoder Device :=
  record.decoder "DeviceNode"

/-- A device node as a document. -/
def toJson (d : Device) : Json :=
  .ofList [
    ("path", .str d.path.display),
    ("kind", d.kind.toJson),
    ("major", .nat d.major.toNat),
    ("minor", .nat d.minor.toNat)]

end Device

/-- The device node that a path leads to. -/
def Host.device (h : Host) (p : Path) : Except Error Device :=
  match h.entryAt p with
  | .error e => .error (.io p e)
  | .ok e =>
    match e.content with
    | .device kind major minor => .ok ⟨p, kind, major, minor⟩
    | _ => .error (.notFound .deviceNode p.display)

end Sandbox
