import Rollout.Agent
import Rollout.Proofs.Endings
import Rollout.Proofs.Retention
import Rollout.Proofs.Store.Order

/-!
# One deployment after another

Deployments that are taken up in a row, each in the world that the one before has left, are a run
whose turns are determined by the first world: `inTurn`.  The worker of an agent takes up what waits
in the intake in this way.
-/

namespace Rollout.Pipeline

variable {σ : Type} {env : Surroundings (StateM σ)} {p : Pipeline} {t : Turn σ}

/-! ### Reachable stores -/

theorem reachable_next (h : p.store.Reachable) : (t.next env p).store.Reachable := by
  rcases refuses_or_accepts env p t with hrefuses | ⟨d, scope, pass, haccepts⟩
  · rw [hrefuses.next]
    exact h
  · rw [haccepts.next]
    have haccepted : (Verdict.committed p scope d).store.Reachable :=
      h.accept haccepts.room (w := .ofDocument scope d) haccepts.later
    cases pass with
    | off => exact haccepted
    | unsaved groups e => exact haccepted
    | done groups => exact haccepted.keepOnly _

variable (env) in
theorem reachable_run (turns : List (Turn σ)) (h : p.store.Reachable) :
    (run env p turns).store.Reachable := by
  induction turns generalizing p with
  | nil => exact h
  | cons t turns ih => exact ih (reachable_next h)

/-! ### Room -/

theorem isExhausted_of_room (h : p.store.Room) : (t.outcome env p).isExhausted = false := by
  obtain ⟨v, hends⟩ := t.ends env p
  rw [hends.isExhausted_eq]
  cases hstop : v.stop? with
  | none => rfl
  | some stop =>
    obtain ⟨-, d, groups, place, rfl⟩ := Verdict.stop?_eq_some hstop
    exact absurd h hends.fits.2.2

/-- A turn that cannot be counted has no record and changes nothing. -/
theorem stopped_of_isExhausted (h : (t.outcome env p).isExhausted = true) :
    (t.outcome env p).result = .error .exhausted ∧ t.next env p = p ∧ ¬p.store.Room := by
  obtain ⟨v, hends⟩ := t.ends env p
  rw [hends.isExhausted_eq, Option.isSome_iff_exists] at h
  obtain ⟨stop, hstop⟩ := h
  obtain ⟨-, d, groups, place, rfl⟩ := Verdict.stop?_eq_some hstop
  obtain ⟨history, -, hresult⟩ := hends.record
  exact ⟨hresult, hends.next, hends.fits.2.2⟩

/-- There is a place for every acceptance where there is one for every turn. -/
theorem hasRoom_of_places {turns : List (Turn σ)}
    (h : p.store.nextSequence.toNat + turns.length < UInt64.size) : HasRoom env p turns := by
  induction turns generalizing p with
  | nil => exact List.forall_mem_nil _
  | cons t turns ih =>
    rw [List.length_cons] at h
    have hroom : p.store.Room := by
      unfold Store.Room
      omega
    refine List.forall_mem_cons.2 ⟨isExhausted_of_room hroom, ih ?_⟩
    rcases refuses_or_accepts env p t with hrefuses | ⟨d, scope, pass, haccepts⟩
    · rw [hrefuses.next]
      omega
    · have hplaces : (t.next env p).store.nextSequence = p.store.nextSequence + 1 := by
        rw [haccepts.next]
        cases pass <;> rfl
      rw [hplaces, Store.toNat_nextSequence hroom]
      omega

theorem hasRoom_append_iff {before after : List (Turn σ)} : HasRoom env p (before ++ after) ↔
    HasRoom env p before ∧ HasRoom env (run env p before) after := by
  unfold HasRoom
  rw [outcomes_append]
  exact List.forall_mem_append

theorem hasRoom_singleton : HasRoom env p [t] ↔ (t.outcome env p).isExhausted = false :=
  List.forall_mem_singleton

theorem genuine_journals (env : Surroundings (StateM σ)) (p : Pipeline) (turns : List (Turn σ)) :
    ∀ events ∈ journals env p turns, ∀ e ∈ events, Event.Genuine env e := by
  induction turns generalizing p with
  | nil => exact List.forall_mem_nil _
  | cons t turns ih =>
    refine List.forall_mem_cons.2 ⟨?_, ih (t.next env p)⟩
    exact (journal_history env t.deployment p t.world).genuine

/-! ### Deployments in a row -/

section InTurn

variable (env)

/-- The turns of deployments that are taken up in a row. -/
def inTurn : Pipeline → σ → List Deployment → List (Turn σ)
  | _, _, [] => []
  | p, w, d :: ds => ⟨d, w⟩ :: inTurn (Turn.next env p ⟨d, w⟩) (Turn.after env p ⟨d, w⟩) ds

/-- The world after deployments that are taken up in a row. -/
def worldAfter : Pipeline → σ → List Deployment → σ
  | _, w, [] => w
  | p, w, d :: ds => worldAfter (Turn.next env p ⟨d, w⟩) (Turn.after env p ⟨d, w⟩) ds

theorem inTurn_append (p : Pipeline) (w : σ) (ds ds' : List Deployment) :
    inTurn env p w (ds ++ ds') =
      inTurn env p w ds ++
        inTurn env (run env p (inTurn env p w ds)) (worldAfter env p w ds) ds' := by
  induction ds generalizing p w with
  | nil => rfl
  | cons d ds ih =>
    simp only [List.cons_append, inTurn, worldAfter, run_cons]
    rw [ih]

theorem worldAfter_append (p : Pipeline) (w : σ) (ds ds' : List Deployment) :
    worldAfter env p w (ds ++ ds') =
      worldAfter env (run env p (inTurn env p w ds)) (worldAfter env p w ds) ds' := by
  induction ds generalizing p w with
  | nil => rfl
  | cons d ds ih =>
    simp only [List.cons_append, inTurn, worldAfter, run_cons]
    rw [ih]

@[simp] theorem length_inTurn (p : Pipeline) (w : σ) (ds : List Deployment) :
    (inTurn env p w ds).length = ds.length := by
  induction ds generalizing p w with
  | nil => rfl
  | cons d ds ih => simp only [inTurn, List.length_cons, ih]

@[simp] theorem deployment_inTurn (p : Pipeline) (w : σ) (ds : List Deployment) :
    (inTurn env p w ds).map Turn.deployment = ds := by
  induction ds generalizing p w with
  | nil => rfl
  | cons d ds ih => simp only [inTurn, List.map_cons, ih]

/-- Whether a record is that of a deployment and says that it has ended. -/
structure EndOf (d : Deployment) (r : Record) : Prop where
  final : r.stage.isFinal = true
  deployment : r.deployment = d.id
  channel : r.channel = d.channel

variable {env} in
theorem Turn.Ends.endOf {p : Pipeline} {t : Turn σ} {v : Verdict} {r : Record}
    (hends : t.Ends env p v) (hr : (t.outcome env p).result = .ok r) : EndOf t.deployment r := by
  obtain ⟨hended, -, heq⟩ := hends.record_eq hr
  rw [heq]
  exact ⟨Verdict.isFinal_stage hended, rfl, rfl⟩

/-- A turn that can be counted ends with a record. -/
theorem exists_record {p : Pipeline} {t : Turn σ} (h : (t.outcome env p).isExhausted = false) :
    ∃ r, (t.outcome env p).result = .ok r ∧ EndOf t.deployment r := by
  obtain ⟨v, hends⟩ := t.ends env p
  rw [hends.isExhausted_eq, Option.isSome_eq_false_iff, Option.isNone_iff_eq_none] at h
  obtain ⟨history, -, hrecord⟩ := hends.recorded h
  exact ⟨_, hrecord, hends.endOf hrecord⟩

theorem exists_records {p : Pipeline} {turns : List (Turn σ)} (hroom : HasRoom env p turns) :
    ∃ records, (outcomes env p turns).map Outcome.result = records.map .ok ∧
      List.Forall₂ EndOf (turns.map Turn.deployment) records := by
  induction turns generalizing p with
  | nil => exact ⟨[], rfl, .nil⟩
  | cons t turns ih =>
    obtain ⟨r, hrecord, hend⟩ := exists_record env hroom.cons.1
    obtain ⟨records, hrecords, hown⟩ := ih hroom.cons.2
    refine ⟨r :: records, ?_, .cons hend hown⟩
    rw [outcomes, List.map_cons, List.map_cons, hrecord, hrecords]

end InTurn

/-! ### The worker of an agent -/

section Worker

variable {κ : Type} {agent : Agent κ} (env)

theorem run_turn_none (hnot : agent.intake.stopping = false) (hnone : agent.intake.waiting = [])
    (w : σ) : (agent.turn env).run w = ((none, agent), w) := by
  have htake : agent.intake.take = (none, agent.intake) := by
    simp [Intake.take, hnot, hnone]
  unfold Agent.turn
  rw [htake]
  rfl

theorem run_turn_some (hnot : agent.intake.stopping = false) {ticket : Ticket} {d : Deployment}
    {rest : List (Ticket × Deployment)} (hsome : agent.intake.waiting = (ticket, d) :: rest)
    (w : σ) :
    let t : Turn σ := ⟨d, w⟩
    let intake := { agent.intake with waiting := rest }
    (agent.turn env).run w =
      ((some (ticket, t.outcome env agent.pipeline),
        ⟨t.next env agent.pipeline,
          if (t.outcome env agent.pipeline).isExhausted then intake.close else intake,
          agent.outbox.enqueueAll (t.outcome env agent.pipeline).reports⟩),
        t.after env agent.pipeline) := by
  have htake : agent.intake.take =
      (some (ticket, d), { agent.intake with waiting := rest }) := by
    simp [Intake.take, hnot, hsome]
  unfold Agent.turn
  rw [htake]
  rfl

/-- Enough turns of the worker take up all that waits, in its order. -/
theorem run_turns (hnot : agent.intake.stopping = false) {n : Nat}
    (hn : agent.intake.waiting.length < n) (w : σ)
    (hroom : HasRoom env agent.pipeline
      (inTurn env agent.pipeline w (agent.intake.waiting.map Prod.snd))) :
    let ds := agent.intake.waiting.map Prod.snd
    let turns := inTurn env agent.pipeline w ds
    ∃ outbox, (Agent.turns env n agent).run w =
      (((agent.intake.waiting.map Prod.fst).zip (outcomes env agent.pipeline turns),
        ⟨run env agent.pipeline turns, { agent.intake with waiting := [] }, outbox⟩),
        worldAfter env agent.pipeline w ds) := by
  induction n generalizing agent w with
  | zero => omega
  | succ n ih =>
    cases hwaiting : agent.intake.waiting with
    | nil =>
      refine ⟨agent.outbox, ?_⟩
      have hintake : agent.intake = { agent.intake with waiting := [] } := by
        rw [← hwaiting]
      rw [Agent.turns, Store.run_bind_of_run (run_turn_none env hnot hwaiting w), ← hintake]
      rfl
    | cons next rest =>
      obtain ⟨ticket, d⟩ := next
      have hturn := run_turn_some env hnot hwaiting w
      rw [hwaiting, List.length_cons] at hn
      let t : Turn σ := ⟨d, w⟩
      rw [hwaiting] at hroom
      obtain ⟨hcounted, hroom'⟩ := HasRoom.cons hroom
      dsimp only at hturn
      rw [hcounted, if_neg Bool.false_ne_true] at hturn
      let agent' : Agent κ := ⟨t.next env agent.pipeline, { agent.intake with waiting := rest },
        agent.outbox.enqueueAll (t.outcome env agent.pipeline).reports⟩
      have hnot' : agent'.intake.stopping = false := hnot
      obtain ⟨outbox, hrest⟩ :=
        ih hnot' (Nat.lt_of_succ_lt_succ hn) (t.after env agent.pipeline) hroom'
      refine ⟨outbox, ?_⟩
      rw [Agent.turns, Store.run_bind_of_run hturn]
      dsimp only
      rw [Store.run_bind_of_run hrest]
      rfl

end Worker

end Rollout.Pipeline
