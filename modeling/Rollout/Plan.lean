import Rollout.Effective
import Rollout.Failure

/-!
# Plans and the component manager

A `Plan` says which components the device is to run after a deployment.  The `Manager` keeps every
plan that it is given, and fails for components that it is told to fail for.

Specification: B.9.
-/

namespace Rollout

structure Plan where
  deployment : String
  scope : Scope
  components : EffectiveSet
  fingerprint : String
  deriving DecidableEq, Repr

instance : Shaped Plan where
  shape := .record "ApplyPlan" false <|
    .field "deployment_id" [] .required .text <|
    .field "scope" [] .required (Shaped.shape Scope) <|
    .field "components" [] .required (Shaped.shape EffectiveSet) <|
    .field "fingerprint" [] .required .text
    .nil
  toCarrier p := (p.deployment, Shaped.toCarrier p.scope, Shaped.toCarrier p.components,
    p.fingerprint, ())
  ofCarrier
    | (deployment, scope, components, fingerprint, ()) =>
      ⟨deployment, Shaped.ofCarrier scope, Shaped.ofCarrier components, fingerprint⟩
  ofCarrier_toCarrier p := by simp only [Shaped.ofCarrier_toCarrier]

def Plan.make (deployment : String) (scope : Scope) (components : EffectiveSet) : Plan :=
  ⟨deployment, scope, components, components.fingerprint⟩

structure Manager where
  plans : List Plan
  failing : NameSet
  deriving DecidableEq, Repr

namespace Manager

def new : Manager := ⟨[], .empty⟩

def failure (component : String) : ApplyFailure :=
  ⟨"component '" ++ component ++ "' failed to start", some component⟩

/-- Takes a plan; it fails with the first of its components that fails. -/
def apply (plan : Plan) (manager : Manager) : Except ApplyFailure Unit × Manager :=
  let next := { manager with plans := manager.plans ++ [plan] }
  match plan.components.versions.names.find? manager.failing.contains with
  | some component => (.error (failure component), next)
  | none => (.ok (), next)

end Manager
end Rollout
