import Rollout.Document.Request
import Rollout.Failure
import Rollout.Text.Blank
import Rollout.Text.Lines
import Rollout.Version

/-!
# Deployment documents

A `Document` is a request whose fields obey the rules of `Violation`.  `Request.check` reports the
first rule that a request breaks, in the order in which the rules are listed there; components are
checked in ascending order of their names, each name before its version.

Specification: A.3 (DeploymentDocument), B.8.
-/

namespace Rollout

/-! ### Rules -/

inductive Violation where
  | blankId
  | blankTarget
  | negativeCreation (createdAt : Int64)
  | blankOnBehalfOf
  | parentIsTarget (parent : String)
  | blankComponent
  | badVersion (component version : String) (error : Version.Error)
  deriving DecidableEq, Repr

def Violation.message : Violation → String
  | blankId => "deploymentId must not be empty"
  | blankTarget => "targetGroup must not be empty"
  | negativeCreation createdAt =>
    "creationTimestamp must not be negative, got " ++ toString createdAt.toInt
  | blankOnBehalfOf => "onBehalfOf must not be empty when set"
  | parentIsTarget parent =>
    "parentGroup '" ++ parent ++ "' cannot be the target group itself"
  | blankComponent => "component name must not be empty"
  | badVersion component version error =>
    "component '" ++ component ++ "' has invalid version '" ++ version ++ "': " ++ error.message

def componentViolation? (name version : String) : Option Violation :=
  if Text.isBlank name then some .blankComponent
  else
    match Version.parse version with
    | .ok _ => none
    | .error e => some (.badVersion name version e)

def Request.violation? (r : Request) : Option Violation :=
  if Text.isBlank r.id then some .blankId
  else if Text.isBlank r.target then some .blankTarget
  else if r.createdAt < 0 then some (.negativeCreation r.createdAt)
  else if r.onBehalfOf.any Text.isBlank then some .blankOnBehalfOf
  else if r.parent = some r.target then some (.parentIsTarget r.target)
  else r.components.entries.findSome? fun c => componentViolation? c.1 c.2

/-! ### Documents -/

structure Document where
  id : String
  target : String
  onBehalfOf : Option Scope
  parent : Option String
  createdAt : Int64
  revision : UInt64
  components : NameMap String
  capabilities : NameSet
  deriving DecidableEq, Repr

def Request.content (r : Request) : Document where
  id := r.id
  target := r.target
  onBehalfOf := r.onBehalfOf.map Scope.mk
  parent := r.parent
  createdAt := r.createdAt
  revision := r.revision
  components := r.components
  capabilities := NameSet.ofList r.capabilities

def Request.check (r : Request) : Except Violation Document :=
  match r.violation? with
  | none => .ok r.content
  | some v => .error v

theorem Request.check_eq_ok {r : Request} {d : Document} :
    r.check = .ok d ↔ r.violation? = none ∧ d = r.content := by
  unfold check
  split <;> rename_i h <;> simp [h, eq_comm]

theorem Request.check_eq_error {r : Request} {v : Violation} :
    r.check = .error v ↔ r.violation? = some v := by
  unfold check
  split <;> rename_i h <;> simp [h]

def Request.build (r : Request) : Except Failure Document :=
  r.check.mapError fun v => .invalid v.message

namespace Document

/-- Whether the target lies below the group at the top of the hierarchy. -/
def isBelowTop (d : Document) : Bool := d.onBehalfOf.any fun scope => scope.name ≠ d.target

/-- What is said of a text that cannot be read: the error, with an excerpt if it has a line. -/
def readingReason (text : String) (error : Json.Error) : String :=
  if error.line = 0 then error.message
  else Text.located "JSON" text error.line error.message

def parse (text : String) : Except Failure Document := do
  let request : Request ← (Shaped.parse text).mapError fun e => .unreadable (readingReason text e)
  request.build

end Document
end Rollout
