import Sandbox.Host.Basic
import Sandbox.Error

/-!
Documents in files.
-/

namespace Sandbox.Host

/-- The document in the file that a path leads to. -/
def loadDocument (h : Host) (p : Path) : Except Error Json :=
  match h.openForReading p with
  | .error e => .error (.io p e)
  | .ok content =>
    match readContent content with
    | .error e => .error (.parse p (.reading e))
    | .ok bytes => (Json.parse bytes).mapError fun f => .parse p (.content (.fault f))

/-- The bytes of the text in the file that a path leads to. -/
def loadText (h : Host) (p : Path) : Except Error (List UInt8) :=
  match h.openForReading p with
  | .error e => .error (.io p e)
  | .ok content =>
    match readContent content with
    | .error e => .error (.io p (.system e))
    | .ok bytes => if (Utf8.decode? bytes).isSome then .ok bytes else .error (.io p .notText)

/-- The value in the text that a path leads to. -/
def loadValue (h : Host) (p : Path) (d : Decoder α) : Except Error α :=
  match h.loadText p with
  | .error e => .error e
  | .ok bytes => (decodeText d bytes).mapError fun e => .parse p (.content e)

/-- The value that the document a path leads to stands for. -/
def loadDecoded (h : Host) (p : Path) (d : Decoder α) : Except Error α :=
  match h.loadDocument p with
  | .error e => .error e
  | .ok j => (decodeTree d j).mapError fun e => .parse p (.content e)

end Sandbox.Host
