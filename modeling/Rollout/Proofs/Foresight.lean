import Rollout.Proofs.Convergence
import Rollout.Proofs.Series

/-!
# What comes of a deployment without surprises

Where the groups stay the same, every state can be saved and the component manager goes by the plan
alone, the pipeline and the deployment determine what comes of it: `Verdict.foreseen`.  So two runs
of the same deployments from the same pipeline leave the same behind, in whatever worlds they are.
-/

namespace Rollout

/-- Whether an answer of the surroundings is the one to be expected: the groups are the same as
ever, the state is saved and the component manager goes by the plan alone. -/
def Event.Expected (groups : NameSet) (answers : Plan → Except ApplyFailure Unit) : Event → Prop
  | .groups answer => answer = groups
  | .save _ answer => answer = .ok ()
  | .apply plan answer => answer = answers plan

def Record.untimed (r : Record) : Record :=
  { r with history := r.history.map fun step => (step.1, .epoch) }

namespace Pipeline

variable {groups : NameSet} {answers : Plan → Except ApplyFailure Unit}

/-! ### One deployment -/

/-- What comes of a document that competes. -/
def Verdict.foreseenAt (groups : NameSet) (answers : Plan → Except ApplyFailure Unit)
    (p : Pipeline) (d : Document) (place : Hierarchy.Place) : Verdict :=
  match p.store.winner? place.scope with
  | some current => if d.createdAt ≤ current.createdAt then .stale d groups place current else later
  | none => later
where
  later : Verdict :=
    if p.store.Room then
      let pass : Pass := if p.policy.prunes then .done groups else .off
      let next := pass.next place.scope (committed p place.scope d)
      .accepted d groups place pass (answers (plan d place.scope next))
    else .exhausted d groups place

/-- What comes of a deployment without surprises. -/
def Verdict.foreseen (groups : NameSet) (answers : Plan → Except ApplyFailure Unit) (p : Pipeline)
    (deployment : Deployment) : Verdict :=
  match deployment.document with
  | .error failure => .malformed failure
  | .ok d =>
    match Capability.check p.policy.capabilities d.capabilities with
    | .error failure => .incapable d failure
    | .ok () =>
      match Hierarchy.place groups d with
      | .error failure => .misplaced d groups failure
      | .ok place => foreseenAt groups answers p d place

theorem Verdict.lookUp_expected {d : Document} {read : NameSet}
    (h : ∀ e ∈ lookUp d read, e.Expected groups answers) :
    lookUp d read = lookUp d groups ∧ Hierarchy.place read d = Hierarchy.place groups d := by
  cases ho : d.onBehalfOf with
  | none =>
    refine ⟨?_, place_congr ho read groups⟩
    simp [lookUp, ho]
  | some scope =>
    have hmem : Event.groups read ∈ lookUp d read := by simp [lookUp, ho]
    have hread : read = groups := h _ hmem
    rw [hread]
    exact ⟨rfl, rfl⟩

theorem Pass.eq_of_expected {accepted : Scope} {p : Pipeline} {pass : Pass}
    (hfits : pass.Fits accepted p) (h : ∀ e ∈ pass.events accepted p, e.Expected groups answers) :
    pass = if p.policy.prunes then .done groups else .off := by
  cases pass with
  | off =>
    have hoff : p.policy.prunes = false := hfits
    simp [hoff]
  | done read =>
    have hprunes : p.policy.prunes = true := hfits
    have hread : read = groups := h (.groups read) List.mem_cons_self
    simp [hprunes, hread]
  | unsaved read e =>
    have hsaved : Except.error e = .ok () :=
      h (.save _ (.error e)) (List.mem_cons_of_mem _ (List.mem_singleton_self _))
    cases hsaved

namespace Verdict

variable {p : Pipeline} {deployment : Deployment} {d : Document} {place : Hierarchy.Place}

theorem Placed.foreseen {groups : NameSet} (h : Placed p deployment d groups place) :
    foreseen groups answers p deployment = foreseenAt groups answers p d place := by
  simp only [Verdict.foreseen, h.document, h.capable, h.place]

theorem foreseenAt_of_later (h : p.store.Later place.scope d.createdAt) :
    foreseenAt groups answers p d place = foreseenAt.later groups answers p d place := by
  unfold foreseenAt
  cases hw : p.store.winner? place.scope with
  | none => rfl
  | some current => exact if_neg (Int64.not_le.2 (h current hw))

end Verdict

variable {σ : Type} {env : Surroundings (StateM σ)} {p : Pipeline} {t : Turn σ}

/-- A turn without surprises ends as foreseen. -/
theorem Turn.Ends.foreseen {v : Verdict} (hends : t.Ends env p v)
    (h : ∀ e ∈ t.events env p, e.Expected groups answers) :
    t.Ends env p (.foreseen groups answers p t.deployment) := by
  rw [hends.events] at h
  have hfits := hends.fits
  cases v with
  | malformed failure =>
    have hv : Verdict.foreseen groups answers p t.deployment = .malformed failure := by
      have hd : t.deployment.document = .error failure := hfits
      simp only [Verdict.foreseen, hd]
    rw [hv]
    exact hends
  | incapable d failure =>
    have hv : Verdict.foreseen groups answers p t.deployment = .incapable d failure := by
      simp only [Verdict.foreseen, hfits.1, hfits.2]
    rw [hv]
    exact hends
  | misplaced d read failure =>
    obtain ⟨hlookUp, hplace⟩ := Verdict.lookUp_expected h
    obtain ⟨hd, hcapable, hfailure⟩ := hfits
    rw [hplace] at hfailure
    have hv : Verdict.foreseen groups answers p t.deployment = .misplaced d groups failure := by
      simp only [Verdict.foreseen, hd, hcapable, hfailure]
    rw [hv]
    exact ⟨⟨hd, hcapable, hfailure⟩, hends.record, hends.next, hends.events.trans hlookUp⟩
  | stale d read place current =>
    obtain ⟨hlookUp, hplace⟩ := Verdict.lookUp_expected h
    obtain ⟨hplaced, hwinner, hle⟩ := hfits
    have hplaced' : Verdict.Placed p t.deployment d groups place :=
      ⟨hplaced.document, hplaced.capable, hplace ▸ hplaced.place⟩
    have hv : Verdict.foreseen groups answers p t.deployment = .stale d groups place current := by
      rw [hplaced'.foreseen]
      simp only [Verdict.foreseenAt, hwinner, if_pos hle]
    rw [hv]
    exact ⟨⟨hplaced', hwinner, hle⟩, hends.record, hends.next, hends.events.trans hlookUp⟩
  | exhausted d read place =>
    obtain ⟨hlookUp, hplace⟩ := Verdict.lookUp_expected h
    obtain ⟨hplaced, hlater, hfull⟩ := hfits
    have hplaced' : Verdict.Placed p t.deployment d groups place :=
      ⟨hplaced.document, hplaced.capable, hplace ▸ hplaced.place⟩
    have hv : Verdict.foreseen groups answers p t.deployment = .exhausted d groups place := by
      rw [hplaced'.foreseen, Verdict.foreseenAt_of_later hlater]
      exact if_neg hfull
    rw [hv]
    exact ⟨⟨hplaced', hlater, hfull⟩, hends.record, hends.next, hends.events.trans hlookUp⟩
  | unsaved d read place e =>
    have hsaved : Except.error e = .ok () :=
      h (.save _ (.error e)) (List.mem_append_right _ (List.mem_singleton_self _))
    cases hsaved
  | accepted d read place pass answer =>
    simp only [Verdict.events, List.forall_mem_append, List.forall_mem_cons] at h
    obtain ⟨hreads, -, hpasses, happlies, -⟩ := h
    obtain ⟨hlookUp, hplace⟩ := Verdict.lookUp_expected hreads
    obtain ⟨hplaced, hlater, hroom, hpass⟩ := hfits
    have hplaced' : Verdict.Placed p t.deployment d groups place :=
      ⟨hplaced.document, hplaced.capable, hplace ▸ hplaced.place⟩
    have hv : Verdict.foreseen groups answers p t.deployment =
        .accepted d groups place pass answer := by
      have hpass' := Pass.eq_of_expected hpass hpasses
      have hanswer : answer = answers (Verdict.plan d place.scope
        (pass.next place.scope (Verdict.committed p place.scope d))) := happlies
      rw [hplaced'.foreseen, Verdict.foreseenAt_of_later hlater, hanswer, hpass']
      exact if_pos hroom
    have hrecord : ∃ history : List (Stage × Calendar.Instant),
        history.map Prod.fst = (Verdict.accepted d groups place pass answer).path ∧
        (t.outcome env p).result =
          (Verdict.accepted d groups place pass answer).result t.deployment history := by
      cases answer <;> exact hends.record
    rw [hv]
    refine ⟨⟨hplaced', hlater, hroom, hpass⟩, hrecord, hends.next, hends.events.trans ?_⟩
    simp only [Verdict.events, hlookUp]

theorem Turn.Ends.untimed {v : Verdict} (hends : t.Ends env p v) :
    (t.outcome env p).result.map Record.untimed =
      v.result t.deployment (v.path.map fun stage => (stage, .epoch)) := by
  obtain ⟨history, hpath, hresult⟩ := hends.record
  rw [hresult, ← hpath, List.map_map]
  unfold Verdict.result
  cases v.stop? <;> rfl

theorem observed_foreseen (hobserved : p.observed = groups) (deployment : Deployment) :
    ((Verdict.foreseen groups answers p deployment).next p).observed = groups := by
  unfold Verdict.foreseen Verdict.foreseenAt
  split
  · exact hobserved
  split
  · exact hobserved
  split
  · exact hobserved
  have hlater : ∀ (d : Document) (place : Hierarchy.Place),
      ((Verdict.foreseenAt.later groups answers p d place).next p).observed = groups := by
    intro d place
    unfold Verdict.foreseenAt.later
    split
    · simp only [Verdict.next]
      split
      · rfl
      · exact hobserved
    · exact hobserved
  split
  · split
    · exact hobserved
    · exact hlater _ _
  · exact hlater _ _

/-! ### Deployments in a row -/

variable {σ' : Type} {env' : Surroundings (StateM σ')}

/-- What two runs have in common that start from one pipeline and bring no surprises. -/
structure Alike (env : Surroundings (StateM σ)) (env' : Surroundings (StateM σ'))
    (groups : NameSet) (p : Pipeline) (turns : List (Turn σ)) (turns' : List (Turn σ')) :
    Prop where
  records : (outcomes env p turns).map (fun o => o.result.map Record.untimed) =
    (outcomes env' p turns').map (fun o => o.result.map Record.untimed)
  journals : journals env p turns = journals env' p turns'
  run : run env p turns = run env' p turns'
  observed : (Pipeline.run env p turns).observed = groups

theorem alike_inTurn {p : Pipeline} (hobserved : p.observed = groups) (ds : List Deployment)
    (w : σ) (w' : σ')
    (h : ∀ events ∈ journals env p (inTurn env p w ds), ∀ e ∈ events, e.Expected groups answers)
    (h' : ∀ events ∈ journals env' p (inTurn env' p w' ds), ∀ e ∈ events,
      e.Expected groups answers) :
    Alike env env' groups p (inTurn env p w ds) (inTurn env' p w' ds) := by
  induction ds generalizing p w w' with
  | nil => exact ⟨rfl, rfl, rfl, hobserved⟩
  | cons d ds ih =>
    simp only [inTurn, journals, List.forall_mem_cons] at h h'
    obtain ⟨v, hv⟩ := Turn.ends env p ⟨d, w⟩
    obtain ⟨v', hv'⟩ := Turn.ends env' p ⟨d, w'⟩
    have hends := hv.foreseen h.1
    have hends' := hv'.foreseen h'.1
    have hnext := hends.next.trans hends'.next.symm
    have hkept : (Turn.next env p ⟨d, w⟩).observed = groups := by
      rw [hends.next]
      exact observed_foreseen hobserved d
    rw [← hnext] at h'
    obtain ⟨hrecords, hjournals, hrun, hlast⟩ :=
      ih hkept (Turn.after env p ⟨d, w⟩) (Turn.after env' p ⟨d, w'⟩) h.2 h'.2
    refine ⟨?_, ?_, ?_, hlast⟩
    all_goals simp only [inTurn, outcomes, journals, run_cons, List.map_cons, ← hnext]
    · rw [hrecords, hends.untimed, hends'.untimed]
    · rw [hjournals, hends.events, hends'.events]
    · exact hrun

end Pipeline
end Rollout
