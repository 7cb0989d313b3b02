import Rollout.Record

/-!
# Status reports

A `Report` tells how a deployment stands.  It goes out in two ways: as a `JobUpdate` under the name
of the deployment, and at the end of a deployment as a `FleetUpdate` under the name of its scope.
All of them carry the same `Details` of a failure.

Specification: A.6, B.7.
-/

namespace Rollout

/-! ### Details -/

structure Details where
  detailedStatus : Option String
  errorStack : List String
  errorKinds : List String
  cause : Option String
  deriving DecidableEq, Repr

def unlessEmpty (items : List String) : Option (List String) :=
  if items.isEmpty then none else some items

theorem getD_unlessEmpty (items : List String) : (unlessEmpty items).getD [] = items := by
  cases items <;> rfl

theorem join_map_some {α : Type} (value : Option α) : (value.map some).join = value := by
  cases value <;> rfl

instance : Shaped Details where
  shape := .record "StatusDetails" false <|
    .field "detailedStatus" [] .omittable (.optional .text) <|
    .field "errorStack" [] .omittable (.sequence .text) <|
    .field "errorTypes" [] .omittable (.sequence .text) <|
    .field "failureCause" [] .omittable (.optional .text)
    .nil
  toCarrier d := (d.detailedStatus.map some, unlessEmpty d.errorStack, unlessEmpty d.errorKinds,
    d.cause.map some, ())
  ofCarrier
    | (detailedStatus, errorStack, errorKinds, cause, ()) =>
      ⟨detailedStatus.join, errorStack.getD [], errorKinds.getD [], cause.join⟩
  ofCarrier_toCarrier d := by
    simp only [getD_unlessEmpty, join_map_some]

def Details.ofRecord (r : Record) : Details where
  detailedStatus := r.detailedStatus.map DetailedStatus.name
  errorStack := r.errorStack.map FailureCode.name
  errorKinds := r.errorKinds.map FailureKind.name
  cause := r.cause

/-! ### Reports -/

structure Report where
  deployment : String
  channel : Channel
  scope : Option Scope
  target : Option String
  status : JobStatus
  details : Details
  recordedAt : Calendar.Instant
  deriving DecidableEq, Repr

instance : Shaped Report where
  shape := .record "DeploymentStatus" false <|
    .field "deploymentId" [] .required .text <|
    .field "deploymentType" [] .required (Shaped.shape Channel) <|
    .field "scope" [] .required (Shaped.shape (Option Scope)) <|
    .field "targetGroup" [] .required (.optional .text) <|
    .field "status" [] .required (Shaped.shape JobStatus) <|
    .field "details" [] .required (Shaped.shape Details) <|
    .field "recordedAt" [] .required .time
    .nil
  toCarrier r := (r.deployment, Shaped.toCarrier r.channel, Shaped.toCarrier r.scope, r.target,
    Shaped.toCarrier r.status, Shaped.toCarrier r.details, r.recordedAt, ())
  ofCarrier
    | (deployment, channel, scope, target, status, details, recordedAt, ()) =>
      ⟨deployment, Shaped.ofCarrier channel, Shaped.ofCarrier scope, target,
        Shaped.ofCarrier status, Shaped.ofCarrier details, recordedAt⟩
  ofCarrier_toCarrier r := by simp only [Shaped.ofCarrier_toCarrier]

def Report.ofRecord (now : Calendar.Instant) (r : Record) : Report where
  deployment := r.deployment
  channel := r.channel
  scope := r.scope
  target := r.target
  status := .ofStage r.stage
  details := .ofRecord r
  recordedAt := now

/-! ### Updates -/

structure JobUpdate where
  deployment : String
  target : Option String
  scope : Option Scope
  status : JobStatus
  details : Details
  deriving DecidableEq, Repr

instance : Shaped JobUpdate where
  shape := .record "JobStatusUpdate" false <|
    .field "deploymentId" [] .required .text <|
    .field "targetGroup" [] .required (.optional .text) <|
    .field "scope" [] .required (Shaped.shape (Option Scope)) <|
    .field "status" [] .required (Shaped.shape JobStatus) <|
    .field "statusDetails" [] .required (Shaped.shape Details)
    .nil
  toCarrier u := (u.deployment, u.target, Shaped.toCarrier u.scope, Shaped.toCarrier u.status,
    Shaped.toCarrier u.details, ())
  ofCarrier
    | (deployment, target, scope, status, details, ()) =>
      ⟨deployment, target, Shaped.ofCarrier scope, Shaped.ofCarrier status,
        Shaped.ofCarrier details⟩
  ofCarrier_toCarrier u := by simp only [Shaped.ofCarrier_toCarrier]

def JobUpdate.ofReport (r : Report) : JobUpdate :=
  ⟨r.deployment, r.target, r.scope, r.status, r.details⟩

structure FleetUpdate where
  /-- The name of the scope of the deployment, as far as it is known. -/
  deployment : String
  trigger : Trigger
  status : JobStatus
  details : Details
  /-- Milliseconds since the start of 1970. -/
  timestamp : Int64
  deriving DecidableEq, Repr

instance : Shaped FleetUpdate where
  shape := .record "FleetStatusSnapshot" false <|
    .field "deploymentId" [] .required .text <|
    .field "trigger" [] .required (Shaped.shape Trigger) <|
    .field "status" [] .required (Shaped.shape JobStatus) <|
    .field "statusDetails" [] .required (Shaped.shape Details) <|
    .field "timestamp" [] .required .int64
    .nil
  toCarrier u := (u.deployment, Shaped.toCarrier u.trigger, Shaped.toCarrier u.status,
    Shaped.toCarrier u.details, u.timestamp, ())
  ofCarrier
    | (deployment, trigger, status, details, timestamp, ()) =>
      ⟨deployment, Shaped.ofCarrier trigger, Shaped.ofCarrier status, Shaped.ofCarrier details,
        timestamp⟩
  ofCarrier_toCarrier u := by simp only [Shaped.ofCarrier_toCarrier]

def FleetUpdate.ofReport (r : Report) : FleetUpdate where
  deployment := ((r.scope.map Scope.name).or r.target).getD r.deployment
  trigger := .ofChannel r.channel
  status := r.status
  details := r.details
  timestamp := Int64.ofInt r.recordedAt.millis

end Rollout
