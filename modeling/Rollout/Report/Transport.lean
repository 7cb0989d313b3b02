import Rollout.Report.Outbox

/-!
# The transport

A `Transport` takes job updates and fleet updates out of the device and keeps those that it
accepted; while it is offline it refuses all.  Its two publishers are consumers of reports: one
sends every report as a job update, the other one sends the final reports as fleet updates.

Specification: A.6.
-/

namespace Rollout

structure Transport where
  jobs : List JobUpdate
  fleet : List FleetUpdate
  offline : Bool
  deriving DecidableEq, Repr

def Transport.new : Transport := ⟨[], [], false⟩

inductive Publisher where
  | jobs
  | fleet
  deriving DecidableEq, Repr

namespace Publisher

def name : Publisher → String
  | jobs => "job-status"
  | fleet => "fleet-status"

/-- Sends a report; says whether it was accepted.  A report that is not final never goes to the
fleet, which counts as accepted. -/
def send (report : Report) (transport : Transport) : Publisher → Bool × Transport
  | jobs =>
    if transport.offline then (false, transport)
    else (true, { transport with jobs := transport.jobs ++ [.ofReport report] })
  | fleet =>
    if !report.status.isFinal then (true, transport)
    else if transport.offline then (false, transport)
    else (true, { transport with fleet := transport.fleet ++ [.ofReport report] })

end Publisher

def Outbox.attach {κ : Type} (consumer : Publisher → κ) (outbox : Outbox κ) : Outbox κ :=
  Channel.all.foldl
    (fun outbox channel =>
      [Publisher.jobs, Publisher.fleet].foldl
        (fun outbox p => (outbox.register channel p.name (consumer p)).2) outbox)
    outbox

end Rollout
