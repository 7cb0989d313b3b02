import Rollout.Failure
import Rollout.Names.Set

/-!
# Capabilities

A document names what the device has to be capable of; a device that lacks any of it refuses the
document and names all that it lacks.

Specification: A.4 (CapabilityGate).
-/

namespace Rollout.Capability

/-- The capabilities of a device for which nothing else is configured. -/
def standard : NameSet :=
  NameSet.ofList ["LARGE_CONFIGURATION", "LINUX_RESOURCE_LIMITS", "SUB_DEPLOYMENTS"]

def missing (supported required : NameSet) : NameSet := required.diff supported

def check (supported required : NameSet) : Except Failure Unit :=
  if (missing supported required).isEmpty then .ok ()
  else .error (.unsupported (missing supported required).names)

theorem mem_missing {supported required : NameSet} {name : String} :
    name ∈ missing supported required ↔ name ∈ required ∧ name ∉ supported := NameSet.mem_diff

end Rollout.Capability
