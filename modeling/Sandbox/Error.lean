import Sandbox.Host.Failure
import Sandbox.Json.Decode

/-!
Why an operation fails, and the words for it.
-/

namespace Sandbox

/-- The shape that a section of a specification needs. -/
inductive SectionShape where
  | list
  | object
  deriving DecidableEq, Repr

/-- The words for a shape. -/
def SectionShape.message : SectionShape → String
  | list => "a list"
  | object => "an object"

/-- A value or the shape of a document that cannot be used. -/
inductive ConfigError where
  /-- A text that cannot be the id of an instance. -/
  | invalidInstanceId (text : String)
  /-- A path that does not begin with that of its base. -/
  | outside (path base : Path)
  /-- A path that leaves its base behind. -/
  | escapes (path base : Path)
  /-- An instance without packages. -/
  | noLayers (instanceId : String)
  /-- A template that is no object. -/
  | templateShape (found : String)
  /-- A section of the wrong shape. -/
  | sectionShape (path : List String) (expected : SectionShape) (found : String)
  /-- A place in a document without a name. -/
  | emptyPath
  /-- A display socket whose path does not begin at the root. -/
  | relativeSocket (path : Path)
  /-- A display socket whose path ends with no name. -/
  | namelessSocket (path : Path)
  deriving DecidableEq, Repr

/-- The text of a configuration error, without its heading. -/
def ConfigError.detail : ConfigError → String
  | invalidInstanceId s => "invalid instance id: " ++ quoted s
  | outside p base => p.display ++ " is not inside " ++ base.display
  | escapes p base => p.display ++ " escapes " ++ base.display
  | noLayers id => "instance " ++ id ++ " has no package layers"
  | templateShape found => "base template must be an object, found " ++ found
  | sectionShape p expected found =>
    backquoted (".".intercalate p) ++ " must be " ++ expected.message ++ ", found " ++ found
  | emptyPath => "empty document path"
  | relativeSocket p => "display socket " ++ p.display ++ " is not an absolute path"
  | namelessSocket p => "display socket " ++ p.display ++ " has no file name"

/-- The text of a configuration error. -/
def ConfigError.message (e : ConfigError) : String :=
  "invalid configuration: " ++ e.detail

/-- Why a document that was opened cannot be used. -/
inductive ParseCause where
  /-- It cannot be read on. -/
  | reading (cause : Errno)
  /-- It does not stand for what is wanted. -/
  | content (cause : DecodeError)
  deriving DecidableEq, Repr

/-- The text of a cause. -/
def ParseCause.message : ParseCause → String
  | reading e => e.message
  | content e => e.message

/-- What the system is asked to do with a mount. -/
inductive MountOperation where
  | mount
  | unmount
  deriving DecidableEq, Repr

/-- The name of an operation. -/
def MountOperation.name : MountOperation → String
  | mount => "mount"
  | unmount => "umount"

/-- What can be missing. -/
inductive Resource where
  | group
  | user
  | deviceNode
  | packagesList
  deriving DecidableEq, Repr

/-- The name of a resource. -/
def Resource.name : Resource → String
  | group => "group"
  | user => "user"
  | deviceNode => "device node"
  | packagesList => "packages list"

/-- Why an operation fails. -/
inductive Error where
  /-- A file cannot be read or changed. -/
  | io (path : Path) (cause : IoFailure)
  /-- A document cannot be used. -/
  | parse (path : Path) (cause : ParseCause)
  /-- Mounting or unmounting fails. -/
  | mounting (operation : MountOperation) (path : Path) (cause : IoFailure)
  /-- A value or the shape of a document is wrong. -/
  | config (cause : ConfigError)
  /-- Something is not there. -/
  | notFound (resource : Resource) (name : String)
  deriving DecidableEq, Repr

/-- The text of an error. `mountCause` words the causes of failed mounts. -/
def Error.messageWith (mountCause : IoFailure → String) : Error → String
  | io p e => "I/O error at " ++ p.display ++ ": " ++ e.message
  | parse p e => "failed to parse " ++ p.display ++ ": " ++ e.message
  | mounting op p e => op.name ++ " failed for " ++ p.display ++ ": " ++ mountCause e
  | config e => e.message
  | notFound r name => r.name ++ " not found: " ++ name

/-- The text of an error. -/
def Error.message (e : Error) : String :=
  e.messageWith IoFailure.message

end Sandbox
