import Rollout.Channel
import Rollout.Failure
import Rollout.Shape.Shaped

/-!
# Records of deployments

A `Record` follows one deployment through its stages.  `Record.advance` takes the steps that
`Stage.canBecome` allows and refuses all others; `Record.failWith` takes the step that a failure
calls for and notes what the failure says.

Specification: A.3 (Lifecycle record), A.4 (DeploymentLifecycle).
-/

namespace Rollout

structure Record where
  deployment : String
  channel : Channel
  target : Option String
  scope : Option Scope
  createdAt : Option Int64
  stage : Stage
  detailedStatus : Option DetailedStatus
  errorStack : List FailureCode
  errorKinds : List FailureKind
  cause : Option String
  history : List (Stage × Calendar.Instant)
  deriving DecidableEq, Repr

instance : Shaped Record where
  shape := .record "LifecycleRecord" false <|
    .field "deployment_id" [] .required .text <|
    .field "deployment_type" [] .required (Shaped.shape Channel) <|
    .field "target_group" [] .required (.optional .text) <|
    .field "scope" [] .required (Shaped.shape (Option Scope)) <|
    .field "creation_timestamp" [] .required (.optional .int64) <|
    .field "state" [] .required (Shaped.shape Stage) <|
    .field "detailed_status" [] .required (Shaped.shape (Option DetailedStatus)) <|
    .field "error_stack" [] .required (Shaped.shape (List FailureCode)) <|
    .field "error_types" [] .required (Shaped.shape (List FailureKind)) <|
    .field "failure_cause" [] .required (.optional .text) <|
    .field "history" [] .required (Shaped.shape (List (Stage × Calendar.Instant)))
    .nil
  toCarrier r := (r.deployment, Shaped.toCarrier r.channel, r.target, Shaped.toCarrier r.scope,
    r.createdAt, Shaped.toCarrier r.stage, Shaped.toCarrier r.detailedStatus,
    Shaped.toCarrier r.errorStack, Shaped.toCarrier r.errorKinds, r.cause,
    Shaped.toCarrier r.history, ())
  ofCarrier
    | (deployment, channel, target, scope, createdAt, stage, detailedStatus, errorStack,
        errorKinds, cause, history, ()) =>
      ⟨deployment, Shaped.ofCarrier channel, target, Shaped.ofCarrier scope, createdAt,
        Shaped.ofCarrier stage, Shaped.ofCarrier detailedStatus, Shaped.ofCarrier errorStack,
        Shaped.ofCarrier errorKinds, cause, Shaped.ofCarrier history⟩
  ofCarrier_toCarrier r := by simp only [Shaped.ofCarrier_toCarrier]

structure IllegalStep where
  source : Stage
  target : Stage
  deriving DecidableEq, Repr

def IllegalStep.message (s : IllegalStep) : String :=
  "Illegal lifecycle transition " ++ s.source.name ++ " -> " ++ s.target.name

namespace Record

def queued (deployment : String) (channel : Channel) (now : Calendar.Instant) : Record where
  deployment := deployment
  channel := channel
  target := none
  scope := none
  createdAt := none
  stage := .queued
  detailedStatus := none
  errorStack := []
  errorKinds := []
  cause := none
  history := [(.queued, now)]

def advance (now : Calendar.Instant) (stage : Stage) (r : Record) : Except IllegalStep Record :=
  if r.stage.canBecome stage then
    .ok { r with stage := stage, history := r.history ++ [(stage, now)] }
  else .error ⟨r.stage, stage⟩

def succeed (now : Calendar.Instant) (r : Record) : Except IllegalStep Record :=
  r.advance now .succeeded

def note (failure : Failure) (r : Record) : Record :=
  { r with
    detailedStatus := some failure.detailedStatus
    errorStack := failure.stack
    errorKinds := failure.kinds
    cause := some failure.message }

/-- Takes the step that a failure calls for, and notes the failure. -/
def failWith (now : Calendar.Instant) (failure : Failure) (r : Record) :
    Except IllegalStep Record :=
  (r.advance now failure.finalStage).map (note failure)

end Record
end Rollout
