import Rollout.Proofs.Course

/-!
# Runs of deployments

A run takes up one deployment after another.  Each `Turn` has a world of its own, in which the
device takes the deployment up, so anything may happen around the device between two turns.
-/

namespace Rollout.Pipeline

/-- A deployment and the world in which it is taken up. -/
structure Turn (σ : Type) where
  deployment : Deployment
  world : σ

variable {σ : Type} (env : Surroundings (StateM σ))

namespace Turn

def outcome (p : Pipeline) (t : Turn σ) : Outcome := ((process env t.deployment p).run t.world).1.1

def next (p : Pipeline) (t : Turn σ) : Pipeline := ((process env t.deployment p).run t.world).1.2

def events (p : Pipeline) (t : Turn σ) : List Event := journal env t.deployment p t.world

/-- The world after a turn. -/
def after (p : Pipeline) (t : Turn σ) : σ := ((process env t.deployment p).run t.world).2

/-- Whether a turn ends in the way of a verdict. -/
structure Ends (p : Pipeline) (t : Turn σ) (v : Verdict) : Prop where
  fits : v.Fits p t.deployment
  record : ∃ history : List (Stage × Calendar.Instant), history.map Prod.fst = v.path ∧
    (t.outcome env p).result = v.result t.deployment history
  next : t.next env p = v.next p
  events : t.events env p = v.events p

/-- A turn ends in the way of a verdict, and with the reports that go with it. -/
theorem ends_reporting (p : Pipeline) (t : Turn σ) :
    ∃ v, t.Ends env p v ∧ ∃ now now', (t.outcome env p).reports =
      v.announcement t.deployment now ++ v.closing t.deployment now' := by
  obtain ⟨v, history, hfits, hpath, hrecord, ⟨now, now', hreports⟩, hnext, hevents⟩ :=
    process_verdict env t.deployment p t.world
  exact ⟨v, ⟨hfits, ⟨history, hpath, hrecord⟩, hnext, hevents⟩, now, now', hreports⟩

theorem ends (p : Pipeline) (t : Turn σ) : ∃ v, t.Ends env p v := by
  obtain ⟨v, hends, -⟩ := t.ends_reporting env p
  exact ⟨v, hends⟩

end Turn

def run (p : Pipeline) (turns : List (Turn σ)) : Pipeline :=
  turns.foldl (fun p t => t.next env p) p

@[simp] theorem run_nil (p : Pipeline) : run env p [] = p := rfl

@[simp] theorem run_cons (p : Pipeline) (t : Turn σ) (turns : List (Turn σ)) :
    run env p (t :: turns) = run env (t.next env p) turns := rfl

theorem run_append (p : Pipeline) (before after : List (Turn σ)) :
    run env p (before ++ after) = run env (run env p before) after := List.foldl_append

def outcomes : Pipeline → List (Turn σ) → List Outcome
  | _, [] => []
  | p, t :: turns => t.outcome env p :: outcomes (t.next env p) turns

theorem outcomes_append (p : Pipeline) (before after : List (Turn σ)) :
    outcomes env p (before ++ after) =
      outcomes env p before ++ outcomes env (run env p before) after := by
  induction before generalizing p with
  | nil => rfl
  | cons t before ih =>
    simp only [List.cons_append, outcomes, run_cons]
    rw [ih]

@[simp] theorem length_outcomes (p : Pipeline) (turns : List (Turn σ)) :
    (outcomes env p turns).length = turns.length := by
  induction turns generalizing p with
  | nil => rfl
  | cons t turns ih => simp only [outcomes, List.length_cons, ih]

/-- Whether there is a place for every acceptance in a run. -/
def HasRoom (p : Pipeline) (turns : List (Turn σ)) : Prop :=
  ∀ outcome ∈ outcomes env p turns, outcome.isExhausted = false

instance (p : Pipeline) (turns : List (Turn σ)) : Decidable (HasRoom env p turns) :=
  inferInstanceAs (Decidable (∀ outcome ∈ outcomes env p turns, _))

variable {env} in
theorem HasRoom.cons {p : Pipeline} {t : Turn σ} {turns : List (Turn σ)}
    (h : HasRoom env p (t :: turns)) :
    (t.outcome env p).isExhausted = false ∧ HasRoom env (t.next env p) turns :=
  List.forall_mem_cons.1 h

/-! ### What verdicts do to winners -/

@[simp] theorem Pass.policy_next (accepted : Scope) (p : Pipeline) (pass : Pass) :
    (pass.next accepted p).policy = p.policy := by
  cases pass <;> rfl

@[simp] theorem Verdict.policy_next (p : Pipeline) (v : Verdict) :
    (v.next p).policy = p.policy := by
  cases v with
  | accepted d groups place pass answer => exact Pass.policy_next _ _ pass
  | _ => rfl

theorem policy_run (p : Pipeline) (turns : List (Turn σ)) :
    (run env p turns).policy = p.policy := by
  induction turns generalizing p with
  | nil => rfl
  | cons t turns ih =>
    obtain ⟨v, hends⟩ := t.ends env p
    rw [run_cons, ih, hends.next, Verdict.policy_next]

theorem stays_accepted (accepted : Scope) (departed : NameSet) :
    stays accepted departed accepted = true := by
  simp [stays]

theorem Pass.winner?_next_self (accepted : Scope) (p : Pipeline) (pass : Pass) :
    (pass.next accepted p).store.winner? accepted = p.store.winner? accepted := by
  cases pass with
  | off => rfl
  | unsaved groups e => rfl
  | done groups =>
    have hkeeps : keeps accepted p groups accepted = true := stays_accepted _ _
    simp only [next]
    rw [Store.winner?_keepOnly, if_pos hkeeps]

theorem Pass.winner?_next_done (accepted : Scope) (p : Pipeline) (groups : NameSet)
    (scope : Scope) :
    ((Pass.done groups).next accepted p).store.winner? scope =
      if keeps accepted p groups scope then p.store.winner? scope else none :=
  Store.winner?_keepOnly _ _ scope

/-- A pass leaves a winner or drops it, and it drops only what it has no reason to keep. -/
theorem Pass.kept_or_dropped {accepted : Scope} {p : Pipeline} {pass : Pass}
    (hfits : pass.Fits accepted p) (scope : Scope) :
    (pass.next accepted p).store.winner? scope = p.store.winner? scope ∨
      ∃ groups w, pass = .done groups ∧ p.policy.prunes = true ∧
        p.store.winner? scope = some w ∧ keeps accepted p groups scope = false ∧
        (pass.next accepted p).store.winner? scope = none := by
  cases pass with
  | off => exact .inl rfl
  | unsaved groups e => exact .inl rfl
  | done groups =>
    have hnext := winner?_next_done accepted p groups scope
    cases hkeeps : keeps accepted p groups scope with
    | true =>
      rw [hkeeps, if_pos rfl] at hnext
      exact .inl hnext
    | false =>
      rw [hkeeps, if_neg Bool.false_ne_true] at hnext
      cases hw : p.store.winner? scope with
      | none => exact .inl hnext
      | some w => exact .inr ⟨groups, w, rfl, hfits, rfl, hkeeps, hnext⟩

theorem Verdict.winner?_next_self (p : Pipeline) (d : Document) (groups : NameSet)
    (place : Hierarchy.Place) (pass : Pass) (answer : Except ApplyFailure Unit) :
    ((accepted d groups place pass answer).next p).store.winner? place.scope =
      some (p.store.seat place.scope (.ofDocument place.scope d)) := by
  simp only [next]
  rw [Pass.winner?_next_self]
  exact Store.winner?_accept_self _ _ _

theorem Verdict.winner?_committed_of_ne (p : Pipeline) (d : Document) {accepted scope : Scope}
    (h : scope ≠ accepted) :
    (committed p accepted d).store.winner? scope = p.store.winner? scope :=
  Store.winner?_accept_of_ne _ h _

/-! ### Which deployments come into force -/

/-- Whether a record says that its document became the winner of its scope. -/
def InForce (r : Record) : Prop :=
  r.stage = .succeeded ∨ r.stage = .failed ∧ r.detailedStatus = some .applyFailed

instance (r : Record) : Decidable (InForce r) :=
  inferInstanceAs (Decidable (r.stage = .succeeded ∨ _ ∧ _))

namespace Verdict

variable {p : Pipeline} {deployment : Deployment} {history : List (Stage × Calendar.Instant)}

theorem stage_of_failure {v : Verdict} {failure : Failure} (h : v.failure? = some failure) :
    v.stage = failure.finalStage := by
  have hgoes : v.stop? = none := by
    cases v with
    | exhausted => cases h
    | _ => rfl
  rw [stage, hgoes, h]
  rfl

theorem result_of_stop?_eq_none {v : Verdict} (h : v.stop? = none) :
    v.result deployment history = .ok (v.record deployment history) := by
  rw [result, h]

theorem result_eq_ok {v : Verdict} {r : Record} (h : v.result deployment history = .ok r) :
    v.stop? = none ∧ r = v.record deployment history := by
  rw [result] at h
  cases hstop : v.stop? with
  | none =>
    rw [hstop] at h
    cases h
    exact ⟨rfl, rfl⟩
  | some stop =>
    rw [hstop] at h
    cases h

theorem stop?_of_rejected {v : Verdict} (h : v.stage = .rejected) : v.stop? = none := by
  cases v with
  | exhausted => cases h
  | _ => rfl

theorem stop?_eq_some {v : Verdict} {stop : Stop} (h : v.stop? = some stop) :
    stop = .exhausted ∧ ∃ d groups place, v = .exhausted d groups place := by
  cases v with
  | exhausted d groups place =>
    cases h
    exact ⟨rfl, d, groups, place, rfl⟩
  | _ => cases h

theorem inForce_accepted (d : Document) (groups : NameSet) (place : Hierarchy.Place) (pass : Pass)
    (answer : Except ApplyFailure Unit) :
    InForce ((accepted d groups place pass answer).record deployment history) := by
  cases answer with
  | ok _ => exact .inl rfl
  | error failure => exact .inr ⟨rfl, rfl⟩

theorem isExhausted_of_result {v : Verdict} {outcome : Outcome}
    (h : outcome.result = v.result deployment history) :
    outcome.isExhausted = v.stop?.isSome := by
  rw [Outcome.isExhausted, h, result]
  cases hstop : v.stop? with
  | none => rfl
  | some stop =>
    obtain ⟨rfl, -⟩ := stop?_eq_some hstop
    rfl

/-- A deployment is rejected and leaves the pipeline as it was, or its document competed and is
later than the winner of its scope. -/
theorem rejected_or_later {v : Verdict} (hfits : v.Fits p deployment) :
    (v.stage = .rejected ∧ v.next p = p) ∨
      ∃ d groups place, Placed p deployment d groups place ∧
        p.store.Later place.scope d.createdAt ∧
        (v = .exhausted d groups place ∨ (∃ e, v = .unsaved d groups place e) ∨
          ∃ pass answer, v = .accepted d groups place pass answer) := by
  cases v with
  | malformed failure =>
    have hstage := stage_of_failure (v := .malformed failure) rfl
    exact .inl ⟨hstage.trans (finalStage_of_document hfits), rfl⟩
  | incapable d failure =>
    have hstage := stage_of_failure (v := .incapable d failure) rfl
    exact .inl ⟨hstage.trans (finalStage_of_check hfits.2), rfl⟩
  | misplaced d groups failure =>
    have hstage := stage_of_failure (v := .misplaced d groups failure) rfl
    exact .inl ⟨hstage.trans (finalStage_of_place hfits.2.2), rfl⟩
  | stale d groups place current => exact .inl ⟨rfl, rfl⟩
  | exhausted d groups place =>
    exact .inr ⟨d, groups, place, hfits.1, hfits.2.1, .inl rfl⟩
  | unsaved d groups place e =>
    exact .inr ⟨d, groups, place, hfits.1, hfits.2.1, .inr (.inl ⟨e, rfl⟩)⟩
  | accepted d groups place pass answer =>
    exact .inr ⟨d, groups, place, hfits.1, hfits.2.1, .inr (.inr ⟨pass, answer, rfl⟩)⟩

/-- Only an accepted document comes into force, all others leave the pipeline as it was. -/
theorem refused_or_accepted {v : Verdict} (hfits : v.Fits p deployment) :
    ((∀ history, ¬InForce (v.record deployment history)) ∧ v.next p = p) ∨ v.Accepted := by
  rcases rejected_or_later hfits with ⟨hstage, hsame⟩ | ⟨d, groups, place, -, -, hv⟩
  · refine .inl ⟨fun history => ?_, hsame⟩
    rintro (hstage' | ⟨hstage', -⟩) <;> exact absurd (hstage.symm.trans hstage') (by decide)
  · rcases hv with rfl | ⟨e, rfl⟩ | ⟨pass, answer, rfl⟩
    · refine .inl ⟨fun history => ?_, rfl⟩
      rintro (hstage | ⟨hstage, -⟩) <;> cases hstage
    · refine .inl ⟨fun history => ?_, rfl⟩
      rintro (hstage | ⟨-, hstatus⟩)
      · cases hstage
      · cases hstatus
    · exact .inr ⟨d, groups, place, pass, answer, rfl⟩

end Verdict

section Ends

variable {env} {p : Pipeline} {t : Turn σ} {v : Verdict}

theorem Turn.Ends.recorded (h : t.Ends env p v) (hended : v.stop? = none) :
    ∃ history : List (Stage × Calendar.Instant), history.map Prod.fst = v.path ∧
      (t.outcome env p).result = .ok (v.record t.deployment history) := by
  obtain ⟨history, hpath, hresult⟩ := h.record
  exact ⟨history, hpath, hresult.trans (Verdict.result_of_stop?_eq_none hended)⟩

theorem Turn.Ends.record_eq {r : Record} (h : t.Ends env p v)
    (hr : (t.outcome env p).result = .ok r) :
    v.stop? = none ∧ r.history.map Prod.fst = v.path ∧ r = v.record t.deployment r.history := by
  obtain ⟨history, hpath, hresult⟩ := h.record
  obtain ⟨hended, rfl⟩ := Verdict.result_eq_ok (hresult.symm.trans hr)
  exact ⟨hended, hpath, rfl⟩

/-- A turn whose acceptance cannot be counted ends in no other way. -/
theorem Turn.Ends.isExhausted_eq (h : t.Ends env p v) :
    (t.outcome env p).isExhausted = v.stop?.isSome := by
  obtain ⟨history, -, hresult⟩ := h.record
  exact Verdict.isExhausted_of_result hresult

end Ends

/-! ### A device where nothing goes wrong -/

/-- Surroundings in which the groups stay the same and everything succeeds. -/
def quiet (groups : NameSet) : Surroundings (StateM Unit) where
  now := pure .epoch
  groups := pure groups
  save := Store.unsaved
  apply _ := pure (.ok ())

def bare (id target : String) (createdAt : Int64) : Document where
  id := id
  target := target
  onBehalfOf := none
  parent := none
  createdAt := createdAt
  revision := 0
  components := .empty
  capabilities := .empty

end Rollout.Pipeline
