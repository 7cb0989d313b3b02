import Rollout.Scope
import Rollout.Stage

/-!
# Failures of deployments

Every deployment that does not succeed ends with one `Failure`.  The failure decides in which stage
the deployment ends, and carries the codes that both status channels report: a short status, a stack
of two codes from the general to the particular, and the kinds of those codes.

Specification: A.7, B.2.
-/

namespace Rollout

/-! ### Codes -/

inductive FailureCode where
  | deploymentFailure
  | deploymentRejected
  | staleDeployment
  | missingCapabilities
  | invalidHierarchy
  | documentNotValid
  | documentParseError
  | componentUpdateError
  | writeError
  deriving DecidableEq, Repr

inductive FailureKind where
  | request
  | component
  | device
  deriving DecidableEq, Repr

inductive DetailedStatus where
  | staleDeployment
  | unsupportedCapability
  | invalidHierarchy
  | malformedDocument
  | applyFailed
  | storeWriteFailed
  deriving DecidableEq, Repr

namespace FailureKind

def name : FailureKind → String
  | request => "REQUEST_ERROR"
  | component => "COMPONENT_ERROR"
  | device => "DEVICE_ERROR"

instance : Enumerated FailureKind where
  all := [request, component, device]
  name := name
  index
    | request => 0
    | component => 1
    | device => 2
  get_index a := by cases a <;> rfl

end FailureKind

namespace FailureCode

def name : FailureCode → String
  | deploymentFailure => "DEPLOYMENT_FAILURE"
  | deploymentRejected => "DEPLOYMENT_REJECTED"
  | staleDeployment => "REJECTED_STALE_DEPLOYMENT"
  | missingCapabilities => "NUCLEUS_MISSING_REQUIRED_CAPABILITIES"
  | invalidHierarchy => "INVALID_GROUP_HIERARCHY"
  | documentNotValid => "DEPLOYMENT_DOCUMENT_NOT_VALID"
  | documentParseError => "DEPLOYMENT_DOCUMENT_PARSE_ERROR"
  | componentUpdateError => "COMPONENT_UPDATE_ERROR"
  | writeError => "IO_WRITE_ERROR"

instance : Enumerated FailureCode where
  all := [deploymentFailure, deploymentRejected, staleDeployment, missingCapabilities,
    invalidHierarchy, documentNotValid, documentParseError, componentUpdateError, writeError]
  name := name
  index
    | deploymentFailure => 0
    | deploymentRejected => 1
    | staleDeployment => 2
    | missingCapabilities => 3
    | invalidHierarchy => 4
    | documentNotValid => 5
    | documentParseError => 6
    | componentUpdateError => 7
    | writeError => 8
  get_index a := by cases a <;> rfl

def kind? : FailureCode → Option FailureKind
  | deploymentFailure | deploymentRejected | staleDeployment => none
  | missingCapabilities | invalidHierarchy | documentNotValid | documentParseError => some .request
  | componentUpdateError => some .component
  | writeError => some .device

end FailureCode

namespace DetailedStatus

def name : DetailedStatus → String
  | staleDeployment => "STALE_DEPLOYMENT"
  | unsupportedCapability => "UNSUPPORTED_CAPABILITY"
  | invalidHierarchy => "INVALID_HIERARCHY"
  | malformedDocument => "MALFORMED_DOCUMENT"
  | applyFailed => "APPLY_FAILED"
  | storeWriteFailed => "STORE_WRITE_FAILED"

instance : Enumerated DetailedStatus where
  all := [staleDeployment, unsupportedCapability, invalidHierarchy, malformedDocument, applyFailed,
    storeWriteFailed]
  name := name
  index
    | staleDeployment => 0
    | unsupportedCapability => 1
    | invalidHierarchy => 2
    | malformedDocument => 3
    | applyFailed => 4
    | storeWriteFailed => 5
  get_index a := by cases a <;> rfl

end DetailedStatus

/-! ### Failures -/

structure ApplyFailure where
  reason : String
  component : Option String
  deriving DecidableEq, Repr

inductive Failure where
  | unreadable (reason : String)
  | invalid (reason : String)
  | unsupported (missing : List String)
  | hierarchy (scope : Scope) (reason : String)
  | stale (scope : Scope) (candidate winner : Int64)
  | apply (failure : ApplyFailure)
  | storage (reason : String)
  deriving DecidableEq, Repr

namespace Failure

def message : Failure → String
  | unreadable reason => "Malformed deployment document: " ++ reason
  | invalid reason => "Malformed deployment document: " ++ reason
  | unsupported missing =>
    "Device does not support required capabilities: " ++ ", ".intercalate missing
  | hierarchy scope reason =>
    "Invalid group hierarchy for scope '" ++ scope.name ++ "': " ++ reason
  | stale scope candidate winner =>
    "Stale deployment for scope '" ++ scope.name ++ "': creation timestamp " ++
      toString candidate.toInt ++ " does not exceed current winner " ++ toString winner.toInt
  | apply failure => "Failed to apply deployment: " ++ failure.reason
  | storage reason => "Failed to persist effective configuration: " ++ reason

def finalStage : Failure → Stage
  | apply _ | storage _ => .failed
  | _ => .rejected

def detailedStatus : Failure → DetailedStatus
  | unreadable _ | invalid _ => .malformedDocument
  | unsupported _ => .unsupportedCapability
  | hierarchy _ _ => .invalidHierarchy
  | stale _ _ _ => .staleDeployment
  | apply _ => .applyFailed
  | storage _ => .storeWriteFailed

def code : Failure → FailureCode
  | unreadable _ => .documentParseError
  | invalid _ => .documentNotValid
  | unsupported _ => .missingCapabilities
  | hierarchy _ _ => .invalidHierarchy
  | stale _ _ _ => .staleDeployment
  | apply _ => .componentUpdateError
  | storage _ => .writeError

def generalCode (stage : Stage) : FailureCode :=
  if stage = .failed then .deploymentFailure else .deploymentRejected

def stack (failure : Failure) : List FailureCode :=
  [generalCode failure.finalStage, failure.code]

def kinds (failure : Failure) : List FailureKind := (failure.stack.filterMap (·.kind?)).eraseDups

end Failure
end Rollout
