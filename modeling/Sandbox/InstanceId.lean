import Sandbox.Error

/-!
Instance ids: the names that everything made for an instance goes by.

An id is used as a segment of paths, so it must not be one that leads elsewhere.
-/

namespace Sandbox

/-- The text can be a segment of a path: it is not empty, not `.` or `..`, and
holds no slash. -/
def isSegment (s : String) : Bool :=
  s ≠ "" && s ≠ "." && s ≠ ".." && !s.toList.contains '/'

/-- The id of an instance. -/
structure InstanceId where
  text : String
  isSegment_text : isSegment text = true
  deriving DecidableEq, Repr

namespace InstanceId

/-- The id with a text. -/
def ofString (s : String) : Except ConfigError InstanceId :=
  if h : isSegment s = true then .ok ⟨s, h⟩ else .error (.invalidInstanceId s)

/-- An id in a document is a text. -/
def decoder : Decoder InstanceId :=
  fun src r => do
    let s ← Decoder.string src r
    (ofString s).mapError fun e => .refused e.message

/-- An id as a document. -/
def toJson (id : InstanceId) : Json :=
  .str id.text

end InstanceId

end Sandbox
