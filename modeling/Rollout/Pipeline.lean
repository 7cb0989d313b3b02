import Rollout.Arbitration
import Rollout.Capability
import Rollout.Deployment
import Rollout.Hierarchy
import Rollout.Plan
import Rollout.Report.Basic
import Rollout.Store.Basic

/-!
# The pipeline

`Pipeline.process` takes one deployment from its arrival to its end: the document is read, checked
against the capabilities of the device and placed in its hierarchy; it is compared with the winner
of its scope; if it is newer it becomes the winner, the winners of groups that the device has left
are dropped, and the components of all winners are handed to the component manager.

What lies outside of the device's own decisions is in `Surroundings`, as actions of a monad.  A
deployment that does not come to an end has a `Stop` in place of its record.

Specification: A.2 (control flow), B.6.
-/

namespace Rollout

/-- What a pipeline asks of the rest of the device. -/
structure Surroundings (m : Type → Type) where
  now : m Calendar.Instant
  groups : m NameSet
  save : Snapshot → m (Except Snapshot.SaveError Unit)
  apply : Plan → m (Except ApplyFailure Unit)

structure Policy where
  capabilities : NameSet
  /-- Whether the winners of groups that the device has left are dropped. -/
  prunes : Bool
  deriving DecidableEq, Repr

structure Pipeline where
  policy : Policy
  store : Store
  /-- The groups that the device belonged to when they were last compared. -/
  observed : NameSet
  deriving DecidableEq, Repr

namespace Pipeline

/-! ### One deployment in work -/

structure Progress where
  pipeline : Pipeline
  record : Record
  reports : List Report
  deriving DecidableEq, Repr

/-- Why a deployment does not come to an end. -/
inductive Stop where
  | illegal (step : IllegalStep)
  /-- The counter of acceptances is at its end; the worker does not go on from there. -/
  | exhausted
  deriving DecidableEq, Repr

inductive Halt where
  | failed (failure : Failure)
  | stopped (stop : Stop)
  deriving DecidableEq, Repr

abbrev Work (m : Type → Type) := ExceptT Halt (StateT Progress m)

variable {m : Type → Type} [Monad m] (env : Surroundings m)

def ask {α : Type} (action : m α) : Work m α := ExceptT.lift (StateT.lift action)

def orFail {α : Type} : Except Failure α → Work m α
  | .ok a => pure a
  | .error failure => throw (.failed failure)

def amend (change : Record → Record) : Work m Unit :=
  modify fun p => { p with record := change p.record }

def enter (stage : Stage) : Work m Unit := do
  let now ← ask env.now
  match (← get).record.advance now stage with
  | .ok record => amend fun _ => record
  | .error step => throw (.stopped (.illegal step))

def report : Work m Unit := do
  let now ← ask env.now
  modify fun p => { p with reports := p.reports ++ [.ofRecord now p.record] }

def commit (scope : Scope) (d : Document) : Work m Unit := do
  let p ← get
  let (result, store) ← ask (p.pipeline.store.replace env.save scope (.ofDocument scope d))
  set { p with pipeline := { p.pipeline with store := store } }
  match result with
  | .ok _ => pure ()
  | .error .exhausted => throw (.stopped .exhausted)
  | .error e => throw (.failed (.storage (": ".intercalate e.chain)))

/-- Whether the winner of a scope stays when the device has left some groups: it does if it was just
accepted, if its scope does not depend on membership, or if the device did not leave that group. -/
def stays (accepted : Scope) (departed : NameSet) (scope : Scope) : Bool :=
  scope = accepted || scope.isExempt || !departed.contains scope.name

/-- Drops the winners of groups that the device has left.  If the new state cannot be saved, the
departures are noticed again the next time. -/
def prune (accepted : Scope) : Work m Unit := do
  let groups ← ask env.groups
  let p ← get
  let departed := p.pipeline.observed.diff groups
  if departed.isEmpty then
    set { p with pipeline := { p.pipeline with observed := groups } }
  else
    let (result, store) ← ask (p.pipeline.store.retain env.save (stays accepted departed))
    match result with
    | .ok _ => set { p with pipeline := { p.pipeline with store := store, observed := groups } }
    | .error _ => set { p with pipeline := { p.pipeline with store := store } }

/-- The groups that the place of a document depends on: they are looked up only if the document
names the group at the top of its hierarchy. -/
def groupsFor (d : Document) : Work m NameSet :=
  if d.onBehalfOf.isSome then ask env.groups else pure .empty

/-- Reports that a deployment is being applied; only the channel of jobs is told. -/
def announce (channel : Channel) : Work m Unit :=
  if channel = .jobs then report env else pure ()

/-- Drops the winners of groups that were left, on a device that does so. -/
def tidy (accepted : Scope) : Work m Unit := do
  if (← get).pipeline.policy.prunes then prune env accepted else pure ()

/-- Has the component manager carry out what all winners ask for. -/
def carryOut (scope : Scope) (d : Document) : Work m Unit := do
  let plan := Plan.make d.id scope (← get).pipeline.store.effective
  match ← ask (env.apply plan) with
  | .ok () => enter env .succeeded
  | .error failure => throw (.failed (.apply failure))

/-- Reads and checks the document of a deployment and finds its scope. -/
def screen (deployment : Deployment) : Work m (Document × Scope) := do
  enter env .validating
  let d ← orFail deployment.document
  amend fun r => { r with target := some d.target, createdAt := some d.createdAt }
  orFail (Capability.check (← get).pipeline.policy.capabilities d.capabilities)
  let place ← orFail (Hierarchy.place (← groupsFor env d) d)
  amend fun r => { r with scope := some place.scope }
  return (d, place.scope)

def contend (scope : Scope) (d : Document) : Work m Unit := do
  enter env .arbitrating
  let current := (← get).pipeline.store.winner? scope
  let _ ← orFail (Arbitration.decide scope d.createdAt (current.map Winner.createdAt))

def install (channel : Channel) (scope : Scope) (d : Document) : Work m Unit := do
  enter env .applying
  announce env channel
  commit env scope d
  tidy env scope
  carryOut env scope d

def course (deployment : Deployment) : Work m Unit := do
  let (d, scope) ← screen env deployment
  contend env scope d
  install env deployment.channel scope d

def fail (failure : Failure) : Work m Unit := do
  let now ← ask env.now
  match (← get).record.failWith now failure with
  | .ok record => amend fun _ => record
  | .error step => throw (.stopped (.illegal step))

/-- The course of a deployment with the step that its failure calls for, if it has one. -/
def settle (deployment : Deployment) : Work m Unit :=
  tryCatch (course env deployment) fun
    | .failed failure => fail env failure
    | .stopped stop => throw (.stopped stop)

def wholeCourse (deployment : Deployment) : Work m Unit := do
  settle env deployment
  report env

structure Outcome where
  result : Except Stop Record
  reports : List Report

/-- Whether the worker does not go on after this. -/
def Outcome.isExhausted (outcome : Outcome) : Bool :=
  match outcome.result with
  | .error .exhausted => true
  | _ => false

def Outcome.ofWork (result : Except Halt Unit) (p : Progress) : Outcome :=
  match result with
  | .error (.stopped stop) => ⟨.error stop, p.reports⟩
  | _ => ⟨.ok p.record, p.reports⟩

def process (deployment : Deployment) (pipeline : Pipeline) : m (Outcome × Pipeline) := do
  let now ← env.now
  let start : Progress := ⟨pipeline, .queued deployment.id deployment.channel now, []⟩
  let (result, p) ← (wholeCourse env deployment).run.run start
  return (.ofWork result p, p.pipeline)

/-- A pipeline that starts to work on a device with the given groups. -/
def start (policy : Policy) (store : Store) (groups : NameSet) : Pipeline :=
  ⟨policy, store, groups⟩

end Pipeline
end Rollout
