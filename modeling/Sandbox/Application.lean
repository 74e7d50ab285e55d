import Sandbox.InstanceId
import Sandbox.Json.Record

/-!
The application that an instance runs, and whom it runs for.
-/

namespace Sandbox

/-- An application and the instance it is to run in. -/
structure Application where
  /-- The name of the application, which is the host name within the instance. -/
  appId : String
  /-- The user outside that the instance's root stands for. -/
  uid : UInt32
  /-- The group outside that the instance's root stands for. -/
  gid : UInt32
  /-- The instance. -/
  instanceId : InstanceId
  /-- The socket of the display server. -/
  displaySocket : Path
  /-- The storage of the application. -/
  storagePath : Path
  deriving DecidableEq, Repr

namespace Application

/-- The fields of an application in a document. -/
def record : Record Application :=
  Application.mk
    <$> .required "app_id" Decoder.string
    <*> .required "uid" Decoder.uint32
    <*> .required "gid" Decoder.uint32
    <*> .required "instance_id" InstanceId.decoder
    <*> .required "display_socket" Decoder.path
    <*> .required "storage_path" Decoder.path

/-- An application in a document. -/
def decoder : Decoder Application :=
  record.decoder "AppConfig"

/-- An application as a document. -/
def toJson (a : Application) : Json :=
  .ofList [
    ("app_id", .str a.appId),
    ("uid", .nat a.uid.toNat),
    ("gid", .nat a.gid.toNat),
    ("instance_id", a.instanceId.toJson),
    ("display_socket", .str a.displaySocket.display),
    ("storage_path", .str a.storagePath.display)]

end Application

end Sandbox
