import Rollout.Deployment

/-!
# The intake

Deployments wait in the `Intake` for the one worker that takes them, the oldest first.  Each gets a
ticket.  Once a stop is asked for, the worker takes no further deployment: those that wait are
dropped, and new ones are refused.  The same happens where the worker breaks down.

Specification: A.5, A.9.
-/

namespace Rollout

abbrev Ticket := Nat

inductive IntakeError where
  /-- The deployment was not taken in. -/
  | closed
  /-- The deployment was taken in but never worked on. -/
  | dropped
  deriving DecidableEq, Repr

def IntakeError.message : IntakeError → String
  | closed => "Deployment queue is closed"
  | dropped => "Deployment was dropped before reaching a terminal state"

structure Intake where
  /-- The waiting deployments with their tickets, the oldest first. -/
  waiting : List (Ticket × Deployment)
  count : Nat
  stopping : Bool
  closed : Bool
  deriving DecidableEq, Repr

namespace Intake

def new : Intake := ⟨[], 0, false, false⟩

def submit (deployment : Deployment) (intake : Intake) : Except IntakeError Ticket × Intake :=
  if intake.closed then (.error .closed, intake)
  else
    (.ok intake.count,
      { intake with
        waiting := intake.waiting ++ [(intake.count, deployment)]
        count := intake.count + 1 })

def stop (intake : Intake) : Intake := { intake with stopping := true }

/-- The intake without its worker. -/
def close (intake : Intake) : Intake := { intake with waiting := [], closed := true }

/-- What the worker does next: it stops if it is asked to, takes the oldest deployment, or waits. -/
def take (intake : Intake) : Option (Ticket × Deployment) × Intake :=
  if intake.stopping then (none, intake.close)
  else
    match intake.waiting with
    | [] => (none, intake)
    | next :: rest => (some next, { intake with waiting := rest })

end Intake
end Rollout
