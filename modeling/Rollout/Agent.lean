import Rollout.Config.Basic
import Rollout.Intake
import Rollout.Pipeline
import Rollout.Report.Outbox
import Rollout.Storage.Path

/-!
# The agent

An `Agent` is the program at work on a device: deployments come in through its intake, its one
worker takes them through the pipeline one after another, and their reports wait in its outbox.

Specification: A.5, A.9.
-/

namespace Rollout

structure Agent (κ : Type) where
  pipeline : Pipeline
  intake : Intake
  outbox : Outbox κ
  deriving DecidableEq, Repr

namespace Agent

variable {κ : Type}

def policy (c : Config) : Policy := ⟨c.capabilities, c.prunes⟩

/-- An agent that starts to work on a device with the given groups. -/
def start (c : Config) (store : Store) (groups : NameSet) (outbox : Outbox κ) : Agent κ :=
  ⟨Pipeline.start (policy c) store groups, Intake.new, outbox⟩

def submit (deployment : Deployment) (agent : Agent κ) : Except IntakeError Ticket × Agent κ :=
  let (result, intake) := agent.intake.submit deployment
  (result, { agent with intake := intake })

variable {m : Type → Type} [Monad m]

/-- One turn of the worker: it takes the next deployment, if there is one, through the pipeline, and
its reports go to the outbox.  A worker that could not count an acceptance takes no further one. -/
def turn (env : Surroundings m) (agent : Agent κ) :
    m (Option (Ticket × Pipeline.Outcome) × Agent κ) := do
  match agent.intake.take with
  | (none, intake) => return (none, { agent with intake := intake })
  | (some (ticket, deployment), intake) =>
    let (outcome, pipeline) ← Pipeline.process env deployment agent.pipeline
    let intake := if outcome.isExhausted then intake.close else intake
    return (some (ticket, outcome), ⟨pipeline, intake, agent.outbox.enqueueAll outcome.reports⟩)

/-- Turns of the worker until no deployment is left to take, at most a number of them. -/
def turns (env : Surroundings m) : Nat → Agent κ → m (List (Ticket × Pipeline.Outcome) × Agent κ)
  | 0, agent => pure ([], agent)
  | n + 1, agent => do
    let (done, agent) ← turn env agent
    match done with
    | none => return ([], agent)
    | some first =>
      let (others, agent) ← turns env n agent
      return (first :: others, agent)

def work (env : Surroundings m) (agent : Agent κ) :
    m (List (Ticket × Pipeline.Outcome) × Agent κ) :=
  turns env (agent.intake.waiting.length + 1) agent

/-- Tries to deliver the waiting reports of all channels; the limit bounds the number of reports
that one channel delivers. -/
def flush (consume : κ → Report → m (Bool × List Report)) (limit : Nat) (agent : Agent κ) :
    m (Nat × Agent κ) := do
  let (count, outbox) ← agent.outbox.publishAll consume limit Channel.all
  return (count, { agent with outbox := outbox })

/-- The outcome for the one who submitted a deployment: its record, or an error if it was not worked
on to its end. -/
def settle (done : List (Ticket × Pipeline.Outcome)) (ticket : Ticket) :
    Except IntakeError Record :=
  match done.lookup ticket with
  | some outcome => outcome.result.mapError fun _ => .dropped
  | none => .error .dropped

/-! ### The stored state -/

inductive OpenError where
  | directory (path : String) (error : Storage.FileError)
  | snapshot (error : Snapshot.LoadError)
  deriving DecidableEq, Repr

/-- The messages of an error, from the general to the particular. -/
def OpenError.chain : OpenError → List String
  | directory path error => ["Failed to create state directory: " ++ path, error.message]
  | snapshot error => error.chain

def snapshotPath (directory : String) : String := Path.join directory Snapshot.fileName

/-- Opens the state that is stored in a directory; the directory is made if it is not there. -/
def openStore (files : Storage.Files m) (directory : String) : m (Except OpenError Store) := do
  match ← files.makeDirectory directory with
  | .error e => return .error (.directory directory e)
  | .ok () => return (← Store.load files (snapshotPath directory)).mapError .snapshot

end Agent
end Rollout
