/-!
Why an operation on files fails.
-/

namespace Sandbox

/-- The failures that the system reports by number. -/
inductive Errno where
  | notPermitted
  | noEntry
  | noDevice
  | alreadyExists
  | busy
  | notDirectory
  | isDirectory
  | invalidArgument
  | nameTooLong
  | tooManyLinks
  deriving DecidableEq, Repr

namespace Errno

/-- The number of a failure. -/
def number : Errno → Nat
  | notPermitted => 1
  | noEntry => 2
  | noDevice => 6
  | busy => 16
  | alreadyExists => 17
  | notDirectory => 20
  | isDirectory => 21
  | invalidArgument => 22
  | nameTooLong => 36
  | tooManyLinks => 40

/-- The system's words for a failure. -/
def words : Errno → String
  | notPermitted => "Operation not permitted"
  | noEntry => "No such file or directory"
  | noDevice => "No such device or address"
  | busy => "Device or resource busy"
  | alreadyExists => "File exists"
  | notDirectory => "Not a directory"
  | isDirectory => "Is a directory"
  | invalidArgument => "Invalid argument"
  | nameTooLong => "File name too long"
  | tooManyLinks => "Too many levels of symbolic links"

/-- The text of a failure. -/
def message (e : Errno) : String :=
  e.words ++ " (os error " ++ toString e.number ++ ")"

end Errno

/-- Why reading or changing files fails. -/
inductive IoFailure where
  /-- The system refused. -/
  | system (cause : Errno)
  /-- The path holds a zero byte, so it cannot be handed to the system. -/
  | zeroByte
  /-- The content is not well-formed text. -/
  | notText
  deriving DecidableEq, Repr

/-- The text of a failure. -/
def IoFailure.message : IoFailure → String
  | .system e => e.message
  | .zeroByte => "file name contained an unexpected NUL byte"
  | .notText => "stream did not contain valid UTF-8"

end Sandbox
