import Sandbox.Error

/-!
Why an instance cannot be prepared: the stage that failed and the cause.
-/

namespace Sandbox

/-- The stages that can fail. -/
inductive Stage where
  | baseTemplate
  | graphicsDescriptor
  | manifest
  | package
  | hooks
  | overrides
  | persist
  | overlay
  deriving DecidableEq, Repr

/-- The heading of messages about a stage. -/
def Stage.heading : Stage → String
  | baseTemplate => "base template unavailable"
  | graphicsDescriptor => "graphics descriptor unavailable"
  | manifest => "package manifest rejected"
  | package => "package contributions could not be merged"
  | hooks => "lifecycle hooks could not be generated"
  | overrides => "runtime overrides could not be applied"
  | persist => "failed to persist specification"
  | overlay => "overlay root unavailable"

/-- The failure of a stage. -/
structure StageFailure where
  stage : Stage
  cause : Error
  deriving DecidableEq, Repr

/-- The text of a failure. `mountCause` words the causes of failed mounts. -/
def StageFailure.messageWith (mountCause : IoFailure → String) (f : StageFailure) : String :=
  f.stage.heading ++ ": " ++ f.cause.messageWith mountCause

/-- The text of a failure. -/
def StageFailure.message (f : StageFailure) : String :=
  f.messageWith IoFailure.message

/-- A result that fails at a stage. -/
def Stage.guard (stage : Stage) (x : Except Error α) : Except StageFailure α :=
  x.mapError (.mk stage)

/-- A result that fails at a stage because of what is in a document. -/
def Stage.guardConfig (stage : Stage) (x : Except ConfigError α) : Except StageFailure α :=
  x.mapError fun e => ⟨stage, .config e⟩

end Sandbox
