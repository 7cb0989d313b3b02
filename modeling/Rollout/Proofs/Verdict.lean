import Rollout.Proofs.Journal
import Rollout.Proofs.Store.Changes

/-!
# What can come of a deployment

A `Verdict` says how a deployment ends and holds the answers that decided it.  It determines all
that the deployment leaves behind: the pipeline (`Verdict.next`), the entries of the journal
(`Verdict.events`) and, up to times, the record or what stands in its place (`Verdict.result`).
-/

namespace Rollout

/-- What a record says while its deployment is being applied. -/
def Record.unfinished (r : Record) : Record :=
  { r with
    stage := .applying
    detailedStatus := none
    errorStack := []
    errorKinds := []
    cause := none }

namespace Pipeline

/-! ### Pruning after an acceptance -/

/-- What came of dropping the winners of groups that were left. -/
inductive Pass where
  /-- Nothing is dropped on this device. -/
  | off
  | done (groups : NameSet)
  | unsaved (groups : NameSet) (error : Snapshot.SaveError)

namespace Pass

def keeps (accepted : Scope) (p : Pipeline) (groups : NameSet) : Scope → Bool :=
  stays accepted (p.observed.diff groups)

def next (accepted : Scope) (p : Pipeline) : Pass → Pipeline
  | off => p
  | done groups =>
    { p with store := p.store.keepOnly (keeps accepted p groups), observed := groups }
  | unsaved _ _ => p

def events (accepted : Scope) (p : Pipeline) : Pass → List Event
  | off => []
  | done groups =>
    .groups groups ::
      (if p.store.dropped (keeps accepted p groups) = [] then []
      else [.save (p.store.keepOnly (keeps accepted p groups)).toSnapshot (.ok ())])
  | unsaved groups e =>
    [.groups groups, .save (p.store.keepOnly (keeps accepted p groups)).toSnapshot (.error e)]

/-- Whether a pass may happen: a state is saved only if there is something to drop. -/
def Fits (accepted : Scope) (p : Pipeline) : Pass → Prop
  | off => p.policy.prunes = false
  | done _ => p.policy.prunes = true
  | unsaved groups _ =>
    p.policy.prunes = true ∧ p.store.dropped (keeps accepted p groups) ≠ []

end Pass

/-! ### Verdicts -/

/-- How a deployment ends, with the answers that decided it. -/
inductive Verdict where
  /-- The document cannot be read or breaks a rule. -/
  | malformed (failure : Failure)
  /-- The device lacks a capability. -/
  | incapable (d : Document) (failure : Failure)
  /-- The document does not fit the hierarchy, on a device in the given groups. -/
  | misplaced (d : Document) (groups : NameSet) (failure : Failure)
  | stale (d : Document) (groups : NameSet) (place : Hierarchy.Place) (current : Winner)
  /-- There is no place left to be counted, so the deployment does not come to an end. -/
  | exhausted (d : Document) (groups : NameSet) (place : Hierarchy.Place)
  | unsaved (d : Document) (groups : NameSet) (place : Hierarchy.Place) (error : Snapshot.SaveError)
  | accepted (d : Document) (groups : NameSet) (place : Hierarchy.Place) (pass : Pass)
    (answer : Except ApplyFailure Unit)

namespace Verdict

def failure? : Verdict → Option Failure
  | malformed failure | incapable _ failure | misplaced _ _ failure => some failure
  | stale d _ place current => some (.stale place.scope d.createdAt current.createdAt)
  | exhausted _ _ _ => none
  | unsaved _ _ _ e => some (.storage (": ".intercalate e.chain))
  | accepted _ _ _ _ (.error failure) => some (.apply failure)
  | accepted _ _ _ _ (.ok ()) => none

def stop? : Verdict → Option Stop
  | exhausted _ _ _ => some .exhausted
  | _ => none

def document? : Verdict → Option Document
  | malformed _ => none
  | incapable d _ | misplaced d _ _ | stale d _ _ _ | exhausted d _ _ | unsaved d _ _ _
  | accepted d _ _ _ _ => some d

def scope? : Verdict → Option Scope
  | malformed _ | incapable _ _ | misplaced _ _ _ => none
  | stale _ _ place _ | exhausted _ _ place | unsaved _ _ place _ | accepted _ _ place _ _ =>
    some place.scope

/-- The stages before the last one. -/
def reached : Verdict → List Stage
  | malformed _ | incapable _ _ | misplaced _ _ _ => [.queued, .validating]
  | stale _ _ _ _ | exhausted _ _ _ => [.queued, .validating, .arbitrating]
  | unsaved _ _ _ _ | accepted _ _ _ _ _ => [.queued, .validating, .arbitrating, .applying]

def stage (v : Verdict) : Stage :=
  if v.stop?.isSome then .applying else (v.failure?.map Failure.finalStage).getD .succeeded

/-- Whether the deployment gets as far as being applied. -/
def isApplied : Verdict → Bool
  | malformed _ | incapable _ _ | misplaced _ _ _ | stale _ _ _ _ => false
  | exhausted _ _ _ | unsaved _ _ _ _ | accepted _ _ _ _ _ => true

def path (v : Verdict) : List Stage := v.reached ++ [v.stage]

def record (deployment : Deployment) (history : List (Stage × Calendar.Instant)) (v : Verdict) :
    Record where
  deployment := deployment.id
  channel := deployment.channel
  target := v.document?.map Document.target
  scope := v.scope?
  createdAt := v.document?.map Document.createdAt
  stage := v.stage
  detailedStatus := v.failure?.map Failure.detailedStatus
  errorStack := (v.failure?.map Failure.stack).getD []
  errorKinds := (v.failure?.map Failure.kinds).getD []
  cause := v.failure?.map Failure.message
  history := history

/-- The record, if the deployment comes to an end. -/
def result (deployment : Deployment) (history : List (Stage × Calendar.Instant)) (v : Verdict) :
    Except Stop Record :=
  match v.stop? with
  | some stop => .error stop
  | none => .ok (v.record deployment history)

/-- How the work on a deployment ends. -/
def halt (v : Verdict) : Except Halt Unit :=
  match v.stop? with
  | some stop => .error (.stopped stop)
  | none => .ok ()

/-- The reports before the end: only the channel of jobs is told that a deployment is being
applied. -/
def announcement (deployment : Deployment) (t : Calendar.Instant) (v : Verdict) : List Report :=
  if v.isApplied then
    if deployment.channel = .jobs then [.ofRecord t (v.record deployment []).unfinished] else []
  else []

/-- The report of the end, if the deployment comes to one. -/
def closing (deployment : Deployment) (t : Calendar.Instant) (v : Verdict) : List Report :=
  if v.stop?.isSome then [] else [.ofRecord t (v.record deployment [])]

def committed (p : Pipeline) (scope : Scope) (d : Document) : Pipeline :=
  { p with store := p.store.accept scope (.ofDocument scope d) }

def next (p : Pipeline) : Verdict → Pipeline
  | accepted d _ place pass _ => pass.next place.scope (committed p place.scope d)
  | _ => p

/-- The entry for a look at the groups that finds the place of a document. -/
def lookUp (d : Document) (groups : NameSet) : List Event :=
  if d.onBehalfOf.isSome then [.groups groups] else []

def plan (d : Document) (scope : Scope) (p : Pipeline) : Plan :=
  .make d.id scope p.store.effective

def events (p : Pipeline) : Verdict → List Event
  | malformed _ | incapable _ _ => []
  | misplaced d groups _ | stale d groups _ _ | exhausted d groups _ => lookUp d groups
  | unsaved d groups place e =>
    lookUp d groups ++ [.save (committed p place.scope d).store.toSnapshot (.error e)]
  | accepted d groups place pass answer =>
    lookUp d groups ++ .save (committed p place.scope d).store.toSnapshot (.ok ()) ::
      (pass.events place.scope (committed p place.scope d) ++
        [.apply (plan d place.scope (pass.next place.scope (committed p place.scope d))) answer])

/-- Whether a document was accepted, whatever came of its plan. -/
def Accepted (v : Verdict) : Prop :=
  ∃ d groups place pass answer, v = accepted d groups place pass answer

/-- Whether a document got its place on the device. -/
structure Placed (p : Pipeline) (deployment : Deployment) (d : Document) (groups : NameSet)
    (place : Hierarchy.Place) : Prop where
  document : deployment.document = .ok d
  capable : Capability.check p.policy.capabilities d.capabilities = .ok ()
  place : Hierarchy.place groups d = .ok place

/-- Whether a deployment may end in this way. -/
def Fits (p : Pipeline) (deployment : Deployment) : Verdict → Prop
  | malformed failure => deployment.document = .error failure
  | incapable d failure =>
    deployment.document = .ok d ∧
      Capability.check p.policy.capabilities d.capabilities = .error failure
  | misplaced d groups failure =>
    deployment.document = .ok d ∧
      Capability.check p.policy.capabilities d.capabilities = .ok () ∧
      Hierarchy.place groups d = .error failure
  | stale d groups place current =>
    Placed p deployment d groups place ∧ p.store.winner? place.scope = some current ∧
      d.createdAt ≤ current.createdAt
  | exhausted d groups place =>
    Placed p deployment d groups place ∧ p.store.Later place.scope d.createdAt ∧ ¬p.store.Room
  | unsaved d groups place _ =>
    Placed p deployment d groups place ∧ p.store.Later place.scope d.createdAt ∧ p.store.Room
  | accepted d groups place pass _ =>
    Placed p deployment d groups place ∧ p.store.Later place.scope d.createdAt ∧ p.store.Room ∧
      pass.Fits place.scope (committed p place.scope d)

end Verdict

/-! ### Views of the journal -/

section Views

variable {β : Type} (view : List Event → β)
  (hgroups : ∀ groups events, view (.groups groups :: events) = view events)

include hgroups

/-- A view that passes over readings of groups does not see the look at the groups. -/
theorem Verdict.view_lookUp (d : Document) (groups : NameSet) (events : List Event) :
    view (lookUp d groups ++ events) = view events := by
  unfold lookUp
  split
  · exact hgroups groups events
  · rfl

theorem Verdict.view_lookUp_only (d : Document) (groups : NameSet) :
    view (lookUp d groups) = view [] := by
  rw [← List.append_nil (lookUp d groups)]
  exact view_lookUp view hgroups d groups []

theorem Pass.view_events
    (hsave : ∀ state answer events, view (.save state answer :: events) = view events)
    (accepted : Scope) (p : Pipeline) (pass : Pass) (events : List Event) :
    view (pass.events accepted p ++ events) = view events := by
  cases pass with
  | off => rfl
  | unsaved groups e => exact (hgroups groups _).trans (hsave _ _ events)
  | done groups =>
    refine (hgroups groups _).trans ?_
    split
    · rfl
    · exact hsave _ _ events

end Views

end Pipeline
end Rollout
