import Rollout.Shape.Enumerated

/-!
# Stages of a deployment

The stages that a deployment passes through, the allowed steps between them, and the coarser status
that is reported.

Specification: A.4 (DeploymentLifecycle), B.7.
-/

namespace Rollout

inductive Stage where
  | queued
  | validating
  | arbitrating
  | applying
  | succeeded
  | rejected
  | failed
  deriving DecidableEq, Repr

namespace Stage

def name : Stage → String
  | queued => "QUEUED"
  | validating => "VALIDATING"
  | arbitrating => "ARBITRATING"
  | applying => "APPLYING"
  | succeeded => "SUCCEEDED"
  | rejected => "REJECTED"
  | failed => "FAILED"

instance : Enumerated Stage where
  all := [queued, validating, arbitrating, applying, succeeded, rejected, failed]
  name := name
  index
    | queued => 0
    | validating => 1
    | arbitrating => 2
    | applying => 3
    | succeeded => 4
    | rejected => 5
    | failed => 6
  get_index a := by cases a <;> rfl

def isFinal : Stage → Bool
  | succeeded | rejected | failed => true
  | _ => false

def canBecome : Stage → Stage → Bool
  | queued, validating => true
  | validating, rejected => true
  | validating, arbitrating => true
  | arbitrating, rejected => true
  | arbitrating, applying => true
  | applying, succeeded => true
  | applying, failed => true
  | _, _ => false

end Stage

inductive JobStatus where
  | queued
  | inProgress
  | succeeded
  | failed
  | rejected
  deriving DecidableEq, Repr

namespace JobStatus

def name : JobStatus → String
  | queued => "QUEUED"
  | inProgress => "IN_PROGRESS"
  | succeeded => "SUCCEEDED"
  | failed => "FAILED"
  | rejected => "REJECTED"

instance : Enumerated JobStatus where
  all := [queued, inProgress, succeeded, failed, rejected]
  name := name
  index
    | queued => 0
    | inProgress => 1
    | succeeded => 2
    | failed => 3
    | rejected => 4
  get_index a := by cases a <;> rfl

def ofStage : Stage → JobStatus
  | .queued => queued
  | .validating | .arbitrating | .applying => inProgress
  | .succeeded => succeeded
  | .rejected => rejected
  | .failed => failed

def isFinal : JobStatus → Bool
  | succeeded | failed | rejected => true
  | _ => false

end JobStatus
end Rollout
