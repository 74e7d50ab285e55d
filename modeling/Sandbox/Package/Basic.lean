import Sandbox.Host.Document
import Sandbox.Json.Record
import Sandbox.Memory.Limit

/-!
Packages: what an instance's file system and specification are put together from.

A manifest is a document that lists the packages of an instance. The order counts: it is
the order in which their directories are handed to the mount and in which they contribute
to the specification.
-/

namespace Sandbox

/-- A package, by where it describes itself and where its files are. -/
structure Package where
  /-- The document that the package describes itself with. -/
  metadataPath : Path
  /-- The directory with the files of the package. -/
  mountPath : Path
  deriving DecidableEq, Repr

namespace Package

/-- The fields of a package in a document. -/
def record : Record Package :=
  Package.mk
    <$> .required "metadata_path" Decoder.path
    <*> .required "mount_path" Decoder.path

/-- A package in a document. -/
def decoder : Decoder Package :=
  record.decoder "PackageRef"

/-- A package as a document. -/
def toJson (p : Package) : Json :=
  .ofList [("metadata_path", .str p.metadataPath.display), ("mount_path", .str p.mountPath.display)]

/-- The fields of an entry of a manifest. -/
def entryRecord : Record Package :=
  Package.mk
    <$> .required "pkgMetaDataPath" Decoder.path
    <*> .required "pkgMountPath" Decoder.path

/-- The packages of the list in a manifest. -/
def entriesDecoder : Decoder (List Package) :=
  .list (entryRecord.decoder "ManifestEntry")

/-- The packages that a manifest lists. -/
def loadManifest (h : Host) (p : Path) : Except Error (List Package) :=
  match h.loadDocument p with
  | .error e => .error e
  | .ok doc =>
    match doc.member? "packages" with
    | some (.arr l) => (decodeTree entriesDecoder (.arr l)).mapError fun e => .parse p (.content e)
    | _ => .error (.notFound .packagesList p.display)

end Package

namespace PackageType

/-- The name of a role in a document. -/
def name : PackageType → String
  | runtime => "runtime"
  | application => "application"

/-- A role in a document. -/
def decoder : Decoder PackageType :=
  .enumeration [(runtime.name, runtime), (application.name, application)]

/-- A role as a document. -/
def toJson (t : PackageType) : Json :=
  .str t.name

end PackageType

end Sandbox
