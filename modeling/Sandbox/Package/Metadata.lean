import Sandbox.Host.Document
import Sandbox.Package.Basic

/-!
What a package says about itself.

Every field may be missing, and each is read on its own: a field with a value that
does not fit is taken as missing, and the others are not affected.
-/

namespace Sandbox.Package

/-- A variable that a package sets. -/
structure Configuration where
  key : String
  value : Json
  deriving DecidableEq, Repr

namespace Configuration

/-- The fields of a variable in a document. -/
def record : Record Configuration :=
  Configuration.mk
    <$> .required "key" Decoder.string
    <*> .required "value" Decoder.any

/-- A variable in a document. -/
def decoder : Decoder Configuration :=
  record.decoder "Configuration"

/-- The text of a value: a text as it is, anything else as compact JSON. -/
def valueText : Json → String
  | .str s => s
  | j => j.compact

/-- A variable as an entry of an environment. -/
def entry (c : Configuration) : String :=
  c.key ++ "=" ++ valueText c.value

end Configuration

/-- What a package says about itself. -/
structure Metadata where
  /-- The program that the package adds to the command. -/
  entryPoint : Option String
  /-- The capabilities that the package asks for. -/
  permissions : List String
  /-- The variables that the package sets. -/
  configurations : List Configuration
  /-- The role of the package. -/
  packageType : PackageType
  /-- The memory limit that the package asks for. -/
  memoryLimit : Option String
  /-- Entries that the package adds to the environment. -/
  envVariables : List String
  deriving DecidableEq, Repr

namespace Metadata

/-- A field that is `a` when it is missing or does not fit. -/
def field (name : String) (d : Decoder α) (a : α) : Record α :=
  .defaulting name (d.lenient a) a

/-- The fields of a package's metadata. -/
def record : Record Metadata :=
  Metadata.mk
    <$> field "entryPoint" (.option .string) none
    <*> field "permissions" (.list .string) []
    <*> field "configurations" (.list Configuration.decoder) []
    <*> field "packageType" PackageType.decoder .runtime
    <*> field "memoryLimit" (.option .string) none
    <*> field "envVariables" (.list .string) []

/-- A package's metadata in a document. -/
def decoder : Decoder Metadata :=
  record.decoder "PackageMetadata"

/-- The metadata that a path leads to. -/
def load (h : Host) (p : Path) : Except Error Metadata :=
  h.loadDecoded p decoder

end Metadata

end Sandbox.Package
