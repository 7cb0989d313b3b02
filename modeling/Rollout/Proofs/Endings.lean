import Mathlib.Data.List.Chain
import Rollout.Proofs.Runs

/-!
# How deployments end

`decided?` is a table of the ways in which a deployment ends: the first row whose condition holds
decides.  It looks at the deployment, at the pipeline before it and at the answers of the
surroundings, as the journal shows them.  Every deployment ends as the table says, on the one path
of stages that leads there, but for one that overruns the counter of acceptances: it does not end.
-/

namespace Rollout.Pipeline

/-! ### The answers that decide -/

/-- The groups of the device when they were first read. -/
def groupsRead? (events : List Event) : Option NameSet :=
  events.findSome? fun
    | .groups answer => some answer
    | _ => none

/-- The first state that was to be saved, with what came of it. -/
def firstSave? (events : List Event) : Option (Snapshot × Except Snapshot.SaveError Unit) :=
  events.findSome? fun
    | .save state answer => some (state, answer)
    | _ => none

def applied? (events : List Event) : Option (Except ApplyFailure Unit) :=
  events.findSome? fun
    | .apply _ answer => some answer
    | _ => none

/-! ### The table -/

def lacksCapability (p : Pipeline) (d : Document) : Bool :=
  d.capabilities.names.any fun name => !p.policy.capabilities.contains name

/-- Whether a document is for a hierarchy that the device is not in. -/
def foreign? (d : Document) (events : List Event) : Option Bool :=
  match d.onBehalfOf with
  | none => some false
  | some scope => (groupsRead? events).map fun groups => !groups.contains scope.name

def isStale (p : Pipeline) (d : Document) : Bool :=
  (p.store.winner? (Hierarchy.scopeOf d)).any fun w => d.createdAt ≤ w.createdAt

/-- How a deployment ends that may be saved and applied; `none` is success. -/
def savingDecided? (events : List Event) : Option (Option DetailedStatus) :=
  (firstSave? events).bind fun
    | (_, .error _) => some (some .storeWriteFailed)
    | (_, .ok ()) => (applied? events).map fun
      | .error _ => some .applyFailed
      | .ok () => none

def documentDecided? (p : Pipeline) (d : Document) (events : List Event) :
    Option (Option DetailedStatus) :=
  if lacksCapability p d then some (some .unsupportedCapability)
  else (foreign? d events).bind fun isForeign =>
    if isForeign || namesParentOfTop d then some (some .invalidHierarchy)
    else if isStale p d then some (some .staleDeployment)
    else savingDecided? events

/-- How a deployment ends.  There is no decision if an answer it takes is not in the journal. -/
def decided? (p : Pipeline) (deployment : Deployment) (events : List Event) :
    Option (Option DetailedStatus) :=
  match deployment.document with
  | .error _ => some (some .malformedDocument)
  | .ok d => documentDecided? p d events

/-- Whether a deployment is to be saved where no place is left to be counted. -/
def Overruns (p : Pipeline) (deployment : Deployment) (events : List Event) : Prop :=
  ¬p.store.Room ∧ ∃ d, deployment.document = .ok d ∧ lacksCapability p d = false ∧
    foreign? d events = some false ∧ namesParentOfTop d = false ∧ isStale p d = false

def pathTo : Option DetailedStatus → List Stage
  | some .malformedDocument | some .unsupportedCapability | some .invalidHierarchy =>
    [.queued, .validating, .rejected]
  | some .staleDeployment => [.queued, .validating, .arbitrating, .rejected]
  | some .storeWriteFailed | some .applyFailed =>
    [.queued, .validating, .arbitrating, .applying, .failed]
  | none => [.queued, .validating, .arbitrating, .applying, .succeeded]

theorem isChain_pathTo (status : Option DetailedStatus) :
    (pathTo status).IsChain fun a b => a.canBecome b = true := by
  cases status with
  | none => simp [pathTo, Stage.canBecome]
  | some status => cases status <;> simp [pathTo, Stage.canBecome]

/-- Whether a deployment with this end has got as far as a scope. -/
def findsScope : Option DetailedStatus → Bool
  | some .malformedDocument | some .unsupportedCapability | some .invalidHierarchy => false
  | _ => true

/-- Whether a record is that of a deployment which ends as the table says. -/
structure EndsAsDecided (p : Pipeline) (deployment : Deployment) (events : List Event)
    (r : Record) : Prop where
  decided : decided? p deployment events = some r.detailedStatus
  final : r.stage.isFinal = true
  path : r.history.map Prod.fst = pathTo r.detailedStatus
  stage : (pathTo r.detailedStatus).getLast? = some r.stage
  steps : (r.history.map Prod.fst).IsChain fun a b => a.canBecome b = true
  /-- The first state that is to be saved is the one in which the document is the winner. -/
  saves : ∀ state answer, firstSave? events = some (state, answer) →
    ∃ d, deployment.document = .ok d ∧
      state =
        (p.store.accept (Hierarchy.scopeOf d) (.ofDocument (Hierarchy.scopeOf d) d)).toSnapshot
  unsaved : r.detailedStatus = some .storeWriteFailed ↔
    ∃ state e, firstSave? events = some (state, .error e)
  /-- The message of a deployment that asks for too much lists all that is missing, in order. -/
  lacking : r.detailedStatus = some .unsupportedCapability →
    ∃ d missing, deployment.document = .ok d ∧
      r.cause = some
        ("Device does not support required capabilities: " ++ ", ".intercalate missing) ∧
      missing.Pairwise (· < ·) ∧
      ∀ name, name ∈ missing ↔ name ∈ d.capabilities ∧ name ∉ p.policy.capabilities
  target : r.target = deployment.document.toOption.map Document.target
  createdAt : r.createdAt = deployment.document.toOption.map Document.createdAt
  scope : r.scope = if findsScope r.detailedStatus
    then deployment.document.toOption.map Hierarchy.scopeOf else none

/-! ### Conditions of the table -/

theorem lacksCapability_eq (p : Pipeline) (d : Document) :
    lacksCapability p d = !(Capability.missing p.policy.capabilities d.capabilities).isEmpty := by
  rw [lacksCapability, Capability.missing, NameSet.diff, NameSet.isEmpty, NameSet.filter]
  rw [Bool.eq_iff_iff, Bool.not_eq_true', List.isEmpty_eq_false_iff, ne_eq,
    List.filter_eq_nil_iff, List.any_eq_true]
  simp only [not_forall, exists_prop, Decidable.not_not]

theorem lacksCapability_of_check {p : Pipeline} {d : Document}
    (h : Capability.check p.policy.capabilities d.capabilities = .ok ()) :
    lacksCapability p d = false := by
  rw [lacksCapability_eq]
  unfold Capability.check at h
  split at h
  · rename_i hempty
    rw [hempty]
    rfl
  · cases h

theorem lacksCapability_of_error {p : Pipeline} {d : Document} {failure : Failure}
    (h : Capability.check p.policy.capabilities d.capabilities = .error failure) :
    lacksCapability p d = true := by
  rw [lacksCapability_eq]
  unfold Capability.check at h
  split at h
  · cases h
  · rename_i hempty
    rw [Bool.eq_false_iff.2 hempty]
    rfl

theorem isStale_of_later {p : Pipeline} {d : Document}
    (h : p.store.Later (Hierarchy.scopeOf d) d.createdAt) : isStale p d = false := by
  unfold isStale
  cases hw : p.store.winner? (Hierarchy.scopeOf d) with
  | none => rfl
  | some current => simp [Int64.not_le.2 (h current hw)]

theorem isStale_of_le {p : Pipeline} {d : Document} {current : Winner}
    (hw : p.store.winner? (Hierarchy.scopeOf d) = some current)
    (hle : d.createdAt ≤ current.createdAt) : isStale p d = true := by
  unfold isStale
  rw [hw]
  exact decide_eq_true hle

/-! ### Answers in the journal -/

section Answers

variable (d : Document) (groups : NameSet) (events : List Event)

theorem foreign?_lookUp :
    foreign? d (Verdict.lookUp d groups ++ events) = some (foreignTo groups d) := by
  unfold foreign? foreignTo Verdict.lookUp
  cases d.onBehalfOf <;> rfl

theorem savingDecided?_lookUp :
    savingDecided? (Verdict.lookUp d groups ++ events) = savingDecided? events :=
  Verdict.view_lookUp savingDecided? (fun _ _ => rfl) d groups events

end Answers

theorem savingDecided?_accepted (state : Snapshot) (plan : Plan) (accepted : Scope) (p : Pipeline)
    (pass : Pass) (answer : Except ApplyFailure Unit) :
    savingDecided? (.save state (.ok ()) :: (pass.events accepted p ++ [.apply plan answer])) =
      some (match answer with
        | .error _ => some .applyFailed
        | .ok () => none) := by
  have happlied : savingDecided? (.save state (.ok ()) ::
      (pass.events accepted p ++ [.apply plan answer])) =
      (applied? (pass.events accepted p ++ [.apply plan answer])).map fun
        | .error _ => some .applyFailed
        | .ok () => none := rfl
  -- the answer to the plan stands behind all that the pass saved
  rw [happlied, Pass.view_events applied? (fun _ _ => rfl) (fun _ _ _ => rfl)]
  rfl

/-! ### Verdicts against the table -/

namespace Verdict

variable {p : Pipeline} {deployment : Deployment}

def status (v : Verdict) : Option DetailedStatus := v.failure?.map Failure.detailedStatus

theorem status_malformed {failure : Failure} (h : deployment.document = .error failure) :
    (malformed failure).status = some .malformedDocument := by
  rcases failure_of_document h with ⟨_, rfl⟩ | ⟨_, rfl⟩ <;> rfl

theorem status_incapable {d : Document} {failure : Failure}
    (h : Capability.check p.policy.capabilities d.capabilities = .error failure) :
    (incapable d failure).status = some .unsupportedCapability := by
  rw [failure_of_check h]
  rfl

theorem status_misplaced {d : Document} {groups : NameSet} {failure : Failure}
    (h : Hierarchy.place groups d = .error failure) :
    (misplaced d groups failure).status = some .invalidHierarchy := by
  obtain ⟨-, reason, rfl⟩ := failure_of_place h
  rfl

theorem Placed.decided {d : Document} {groups : NameSet} {place : Hierarchy.Place}
    (h : Placed p deployment d groups place) (events : List Event) :
    decided? p deployment (lookUp d groups ++ events) =
      if isStale p d then some (some .staleDeployment) else savingDecided? events := by
  unfold decided? documentDecided?
  rw [h.document]
  simp only [lacksCapability_of_check h.capable, foreign?_lookUp, Option.bind_some,
    not_foreignTo_of_place h.place, savingDecided?_lookUp, Bool.false_eq_true, if_false]

theorem decided_misplaced {d : Document} {groups : NameSet} {failure : Failure}
    (hd : deployment.document = .ok d)
    (hc : Capability.check p.policy.capabilities d.capabilities = .ok ())
    (hplace : Hierarchy.place groups d = .error failure) :
    decided? p deployment (lookUp d groups) = some (some .invalidHierarchy) := by
  have hforeign := foreign?_lookUp d groups []
  rw [List.append_nil] at hforeign
  unfold decided? documentDecided?
  rw [hd]
  simp only [lacksCapability_of_check hc, hforeign, Option.bind_some, (failure_of_place hplace).1,
    Bool.false_eq_true, if_false, if_true]

theorem decided {v : Verdict} (hfits : v.Fits p deployment) (hends : v.stop? = none) :
    decided? p deployment (v.events p) = some v.status := by
  cases v with
  | malformed failure => rw [decided?, hfits, status_malformed hfits]
  | incapable d failure =>
    rw [decided?, hfits.1, status_incapable hfits.2]
    simp only [documentDecided?, lacksCapability_of_error hfits.2, if_true]
  | misplaced d groups failure =>
    rw [status_misplaced hfits.2.2]
    exact decided_misplaced hfits.1 hfits.2.1 hfits.2.2
  | stale d groups place current =>
    obtain ⟨hplaced, hwinner, hle⟩ := hfits
    rw [Hierarchy.scope_of_place hplaced.place] at hwinner
    have hdecided := hplaced.decided []
    rw [isStale_of_le hwinner hle, List.append_nil] at hdecided
    exact hdecided
  | exhausted d groups place => cases hends
  | unsaved d groups place e =>
    obtain ⟨hplaced, hlater, -⟩ := hfits
    rw [Hierarchy.scope_of_place hplaced.place] at hlater
    have hdecided := hplaced.decided [.save (committed p place.scope d).store.toSnapshot (.error e)]
    rw [isStale_of_later hlater] at hdecided
    exact hdecided
  | accepted d groups place pass answer =>
    obtain ⟨hplaced, hlater, -⟩ := hfits
    rw [Hierarchy.scope_of_place hplaced.place] at hlater
    rw [events, hplaced.decided, isStale_of_later hlater]
    refine (savingDecided?_accepted _ _ place.scope _ pass answer).trans ?_
    cases answer <;> rfl

theorem path_eq {v : Verdict} (hfits : v.Fits p deployment) (hends : v.stop? = none) :
    v.path = pathTo v.status := by
  cases v with
  | malformed failure => rcases failure_of_document hfits with ⟨_, rfl⟩ | ⟨_, rfl⟩ <;> rfl
  | incapable d failure => rw [failure_of_check hfits.2]; rfl
  | misplaced d groups failure =>
    obtain ⟨-, reason, rfl⟩ := failure_of_place hfits.2.2
    rfl
  | stale d groups place current => rfl
  | exhausted d groups place => cases hends
  | unsaved d groups place e => rfl
  | accepted d groups place pass answer =>
    cases answer with
    | ok _ => rfl
    | error failure => rfl

theorem getLast?_path (v : Verdict) : v.path.getLast? = some v.stage := List.getLast?_concat

theorem isFinal_stage {v : Verdict} (hends : v.stop? = none) : v.stage.isFinal = true := by
  rw [stage, hends]
  cases v.failure? with
  | none => rfl
  | some failure => cases failure <;> rfl

def saved? (p : Pipeline) : Verdict → Option (Snapshot × Except Snapshot.SaveError Unit)
  | unsaved d _ place e => some ((committed p place.scope d).store.toSnapshot, .error e)
  | accepted d _ place _ _ => some ((committed p place.scope d).store.toSnapshot, .ok ())
  | _ => none

theorem firstSave?_events (p : Pipeline) (v : Verdict) : firstSave? (v.events p) = v.saved? p := by
  cases v with
  | malformed failure => rfl
  | incapable d failure => rfl
  | misplaced d groups failure => exact view_lookUp_only firstSave? (fun _ _ => rfl) d groups
  | stale d groups place current => exact view_lookUp_only firstSave? (fun _ _ => rfl) d groups
  | exhausted d groups place => exact view_lookUp_only firstSave? (fun _ _ => rfl) d groups
  | unsaved d groups place e => exact view_lookUp firstSave? (fun _ _ => rfl) d groups _
  | accepted d groups place pass answer => exact view_lookUp firstSave? (fun _ _ => rfl) d groups _

theorem saved?_state {v : Verdict} (hfits : v.Fits p deployment) {state : Snapshot}
    {answer : Except Snapshot.SaveError Unit} (h : v.saved? p = some (state, answer)) :
    ∃ d, deployment.document = .ok d ∧
      state = (p.store.accept (Hierarchy.scopeOf d)
        (.ofDocument (Hierarchy.scopeOf d) d)).toSnapshot := by
  cases v with
  | unsaved d groups place e =>
    cases h
    exact ⟨d, hfits.1.document, by rw [← Hierarchy.scope_of_place hfits.1.place]; rfl⟩
  | accepted d groups place pass answer =>
    cases h
    exact ⟨d, hfits.1.document, by rw [← Hierarchy.scope_of_place hfits.1.place]; rfl⟩
  | _ => cases h

theorem storeWriteFailed_iff {v : Verdict} (hfits : v.Fits p deployment) :
    v.status = some .storeWriteFailed ↔ ∃ state e, v.saved? p = some (state, .error e) := by
  cases v with
  | malformed failure => rw [status_malformed hfits]; simp [saved?]
  | incapable d failure => rw [status_incapable hfits.2]; simp [saved?]
  | misplaced d groups failure => rw [status_misplaced hfits.2.2]; simp [saved?]
  | stale d groups place current => simp [status, failure?, saved?, Failure.detailedStatus]
  | exhausted d groups place => simp [status, failure?, saved?]
  | unsaved d groups place e => simp [status, failure?, saved?, Failure.detailedStatus]
  | accepted d groups place pass answer =>
    cases answer <;> simp [status, failure?, saved?, Failure.detailedStatus]

theorem document?_eq {v : Verdict} (hfits : v.Fits p deployment) :
    v.document? = deployment.document.toOption := by
  cases v with
  | malformed failure => rw [hfits]; rfl
  | incapable d failure => rw [hfits.1]; rfl
  | misplaced d groups failure => rw [hfits.1]; rfl
  | stale d groups place current => rw [hfits.1.document]; rfl
  | exhausted d groups place => rw [hfits.1.document]; rfl
  | unsaved d groups place e => rw [hfits.1.document]; rfl
  | accepted d groups place pass answer => rw [hfits.1.document]; rfl

theorem scope?_eq {v : Verdict} (hfits : v.Fits p deployment) :
    v.scope? = if findsScope v.status then deployment.document.toOption.map Hierarchy.scopeOf
      else none := by
  have hplaced : ∀ {d groups place}, Placed p deployment d groups place →
      deployment.document.toOption.map Hierarchy.scopeOf = some place.scope := by
    intro d groups place h
    rw [h.document, Hierarchy.scope_of_place h.place]
    rfl
  cases v with
  | malformed failure => rw [status_malformed hfits]; rfl
  | incapable d failure => rw [status_incapable hfits.2]; rfl
  | misplaced d groups failure => rw [status_misplaced hfits.2.2]; rfl
  | stale d groups place current => exact (hplaced hfits.1).symm
  | exhausted d groups place => exact (hplaced hfits.1).symm
  | unsaved d groups place e => exact (hplaced hfits.1).symm
  | accepted d groups place pass answer =>
    cases answer <;> exact (hplaced hfits.1).symm

theorem lacking {v : Verdict} (hfits : v.Fits p deployment)
    (h : v.status = some .unsupportedCapability) :
    ∃ d missing, deployment.document = .ok d ∧
      v.failure? = some (.unsupported missing) ∧ missing.Pairwise (· < ·) ∧
      ∀ name, name ∈ missing ↔ name ∈ d.capabilities ∧ name ∉ p.policy.capabilities := by
  cases v with
  | malformed failure => rw [status_malformed hfits] at h; cases h
  | incapable d failure =>
    let missing := Capability.missing p.policy.capabilities d.capabilities
    refine ⟨d, missing.names, hfits.1, ?_, missing.sorted, fun _ => Capability.mem_missing⟩
    rw [failure_of_check hfits.2]
    rfl
  | misplaced d groups failure => rw [status_misplaced hfits.2.2] at h; cases h
  | stale d groups place current => cases h
  | exhausted d groups place => cases h
  | unsaved d groups place e => cases h
  | accepted d groups place pass answer => cases answer <;> cases h

/-- The record of a deployment is the one that the table asks for. -/
theorem endsAsDecided {v : Verdict} (hfits : v.Fits p deployment) (hends : v.stop? = none)
    {history : List (Stage × Calendar.Instant)} (hpath : history.map Prod.fst = v.path) :
    EndsAsDecided p deployment (v.events p) (v.record deployment history) where
  decided := decided hfits hends
  final := isFinal_stage hends
  path := hpath.trans (path_eq hfits hends)
  stage := (congrArg List.getLast? (path_eq hfits hends)).symm.trans (getLast?_path v)
  steps := by
    have hhistory : (v.record deployment history).history.map Prod.fst = pathTo v.status :=
      hpath.trans (path_eq hfits hends)
    rw [hhistory]
    exact isChain_pathTo _
  saves state answer h := saved?_state hfits (firstSave?_events p v ▸ h)
  unsaved := by
    rw [firstSave?_events]
    exact storeWriteFailed_iff hfits
  lacking h := by
    obtain ⟨d, missing, hd, hfailure, hmissing⟩ := lacking hfits h
    refine ⟨d, missing, hd, ?_, hmissing⟩
    rw [record, hfailure]
    rfl
  target := by rw [record, document?_eq hfits]
  createdAt := by rw [record, document?_eq hfits]
  scope := scope?_eq hfits

/-! ### Deployments that overrun the counter -/

theorem Placed.overruns {d : Document} {groups : NameSet} {place : Hierarchy.Place}
    (h : Placed p deployment d groups place) (hlater : p.store.Later place.scope d.createdAt)
    (hfull : ¬p.store.Room) : Overruns p deployment (lookUp d groups) := by
  have hforeign := foreign?_lookUp d groups []
  have hneither := not_foreignTo_of_place h.place
  rw [Bool.or_eq_false_iff] at hneither
  rw [List.append_nil, hneither.1] at hforeign
  rw [Hierarchy.scope_of_place h.place] at hlater
  exact ⟨hfull, d, h.document, lacksCapability_of_check h.capable, hforeign, hneither.2,
    isStale_of_later hlater⟩

/-- A deployment that ends is decided by some row of the table. -/
theorem not_overruns {v : Verdict} (hfits : v.Fits p deployment) (hends : v.stop? = none) :
    ¬Overruns p deployment (v.events p) := by
  rintro ⟨hfull, d, hd, hcapable, hforeign, hparent, hfresh⟩
  have hdecided := decided hfits hends
  rw [decided?, hd] at hdecided
  simp only [documentDecided?, hcapable, hforeign, hparent, hfresh, Option.bind_some,
    Bool.or_self, Bool.false_eq_true, if_false] at hdecided
  cases v with
  | exhausted => cases hends
  | unsaved d' groups place e => exact hfull hfits.2.2
  | accepted d' groups place pass answer => exact hfull hfits.2.2.1
  | malformed failure => cases hd.symm.trans hfits
  | incapable d' failure => rw [savingDecided?, firstSave?_events] at hdecided; cases hdecided
  | misplaced d' groups failure =>
    rw [savingDecided?, firstSave?_events] at hdecided
    cases hdecided
  | stale d' groups place current =>
    rw [savingDecided?, firstSave?_events] at hdecided
    cases hdecided

end Verdict

/-- Every deployment ends, and it ends as the table says, unless it overruns the counter.  Such a
deployment does not end: nothing is saved or handed over, and the pipeline stays as it is. -/
theorem deployments_end_as_decided {σ : Type} (env : Surroundings (StateM σ)) (p : Pipeline)
    (t : Turn σ) :
    (¬Overruns p t.deployment (t.events env p) ∧
      ∃ r, (t.outcome env p).result = .ok r ∧
        EndsAsDecided p t.deployment (t.events env p) r) ∨
    (Overruns p t.deployment (t.events env p) ∧
      (t.outcome env p).result = .error .exhausted ∧ t.next env p = p ∧
      firstSave? (t.events env p) = none ∧ applied? (t.events env p) = none) := by
  obtain ⟨v, hends⟩ := t.ends env p
  obtain ⟨history, hpath, hresult⟩ := hends.record
  rw [hends.events]
  cases hstop : v.stop? with
  | none =>
    refine .inl ⟨Verdict.not_overruns hends.fits hstop, v.record t.deployment history, ?_,
      Verdict.endsAsDecided hends.fits hstop hpath⟩
    rw [hresult, Verdict.result_of_stop?_eq_none hstop]
  | some stop =>
    obtain ⟨rfl, d, groups, place, rfl⟩ := Verdict.stop?_eq_some hstop
    obtain ⟨hplaced, hlater, hfull⟩ := hends.fits
    exact .inr ⟨hplaced.overruns hlater hfull, hresult, hends.next,
      Verdict.firstSave?_events p _, Verdict.view_lookUp_only applied? (fun _ _ => rfl) d groups⟩

/-- A document for a device whose counter stands at the last place has no record. -/
theorem unended_at_last_place :
    let env := quiet .empty
    let p := start ⟨.empty, true⟩ ⟨.empty, 18446744073709551615⟩ .empty
    let t : Turn Unit := ⟨⟨.direct, .document (bare "d1" "thinggroup/a" 1)⟩, ()⟩
    (t.outcome env p).result = .error .exhausted ∧ ∀ r, (t.outcome env p).result ≠ .ok r := by
  intro env p t
  have hresult : (t.outcome env p).result = .error .exhausted := by decide +kernel
  refine ⟨hresult, fun r hr => ?_⟩
  rw [hresult] at hr
  cases hr

end Rollout.Pipeline
