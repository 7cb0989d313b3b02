import Rollout.Shape.Enumerated

/-!
# Channels

The ways on which deployments arrive: as fleet jobs, through the device's shadow document, or
directly on the device.  Status reports are queued separately for each channel.

Specification: B.7.
-/

namespace Rollout

inductive Channel where
  | jobs
  | shadow
  | direct
  deriving DecidableEq, Repr

namespace Channel

def name : Channel → String
  | jobs => "JOBS"
  | shadow => "SHADOW"
  | direct => "LOCAL"

instance : Enumerated Channel where
  all := [jobs, shadow, direct]
  name := name
  index
    | jobs => 0
    | shadow => 1
    | direct => 2
  get_index a := by cases a <;> rfl

def all : List Channel := Enumerated.all

/-- A text with its ASCII letters in lower case.  No other character has an ASCII letter among those
of the channels' names as its lower case. -/
def lowered (text : String) : String := String.ofList (text.toList.map Char.toLower)

def ofInput? (text : String) : Option Channel :=
  let text := lowered text
  if text = "jobs" ∨ text = "job" then some jobs
  else if text = "shadow" then some shadow
  else if text = "local" then some direct
  else none

def unknownMessage (text : String) : String :=
  "Unknown deployment type: " ++ text ++ ". Use 'jobs', 'shadow' or 'local'"

end Channel

inductive Trigger where
  | groupDeployment
  | deviceDeployment
  | localDeployment
  deriving DecidableEq, Repr

namespace Trigger

def name : Trigger → String
  | groupDeployment => "THING_GROUP_DEPLOYMENT"
  | deviceDeployment => "THING_DEPLOYMENT"
  | localDeployment => "LOCAL_DEPLOYMENT"

instance : Enumerated Trigger where
  all := [groupDeployment, deviceDeployment, localDeployment]
  name := name
  index
    | groupDeployment => 0
    | deviceDeployment => 1
    | localDeployment => 2
  get_index a := by cases a <;> rfl

def ofChannel : Channel → Trigger
  | .jobs => groupDeployment
  | .shadow => deviceDeployment
  | .direct => localDeployment

end Trigger
end Rollout
