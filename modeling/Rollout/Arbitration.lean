import Rollout.Failure

/-!
# Arbitration

Of the deployments of one scope the newest counts, whatever the order in which they arrive: a
candidate is accepted only if it was made strictly later than the current winner.

Specification: A.4 (DeploymentArbiter).
-/

namespace Rollout.Arbitration

/-- Compares a candidate with the current winner of a scope, by the times when they were made.  An
accepted candidate supersedes the winner, if there is one. -/
def decide (scope : Scope) (candidate : Int64) (current : Option Int64) :
    Except Failure (Option Int64) :=
  match current with
  | none => .ok none
  | some winner =>
    if winner < candidate then .ok (some winner) else .error (.stale scope candidate winner)

end Rollout.Arbitration
