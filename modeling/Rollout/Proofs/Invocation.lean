import Rollout.Command.Run
import Rollout.Proofs.Sessions

/-!
# Running deployments from the command line

The command that runs deployments submits all of them to a new agent, lets its worker take them up
and delivers the reports.  `Command.run_work` says that this is a session.
-/

namespace Rollout

namespace Outbox

variable {σ κ : Type} {consume : κ → Report → StateM σ (Bool × List Report)}

/-! ### Consumers that leave the world alone -/

section World

variable (hconsume : ∀ consumer report w, ((consume consumer report).run w).2 = w)

include hconsume

theorem world_showTo (report : Report) (consumers : List κ) (outbox : Outbox κ) (w : σ) :
    ((outbox.showTo consume report consumers).run w).2 = w := by
  induction consumers generalizing outbox w with
  | nil => rfl
  | cons consumer rest ih =>
    rcases hshown : (consume consumer report).run w with ⟨⟨accepted, added⟩, w'⟩
    have hsame : w' = w := by
      rw [← hconsume consumer report w, hshown]
    rw [showTo, Store.run_bind_of_run hshown, hsame]
    cases accepted with
    | true => exact ih _ w
    | false => rfl

theorem world_deliver (channel : Channel) (consumers : List κ) (limit : Nat) (outbox : Outbox κ)
    (w : σ) : ((outbox.deliver consume channel consumers limit).run w).2 = w := by
  induction limit generalizing outbox w with
  | zero => rfl
  | succ limit ih =>
    rw [deliver]
    cases (outbox.queue channel).head? with
    | none => rfl
    | some report =>
      have hsame := world_showTo hconsume report consumers outbox w
      rcases hshown : (outbox.showTo consume report consumers).run w with ⟨⟨accepted, outbox'⟩, w'⟩
      rw [hshown] at hsame
      dsimp only at hsame ⊢
      rw [Store.run_bind_of_run hshown, hsame]
      cases accepted with
      | true => exact ih _ w
      | false => rfl

theorem world_publishAll (limit : Nat) (channels : List Channel) (outbox : Outbox κ) (w : σ) :
    ((outbox.publishAll consume limit channels).run w).2 = w := by
  induction channels generalizing outbox w with
  | nil => rfl
  | cons channel rest ih =>
    have hsame := world_deliver hconsume channel (outbox.consumers channel) limit outbox w
    rcases hshown : (outbox.publish consume limit channel).run w with ⟨⟨count, outbox'⟩, w'⟩
    have hsame' : w' = w := by
      rw [← hsame, show outbox.deliver consume channel (outbox.consumers channel) limit =
        outbox.publish consume limit channel from rfl, hshown]
    rw [publishAll, Store.run_bind_of_run hshown, hsame']
    exact ih outbox' w

end World

end Outbox

namespace Command

variable {σ α β : Type}

/-! ### Actions that may end with messages -/

theorem run_bind_ok {x : ExceptT (List String) (StateM σ) α}
    {f : α → ExceptT (List String) (StateM σ) β} {a : α} {w w' : σ}
    (h : x.run.run w = (.ok a, w')) : (x >>= f).run.run w = (f a).run.run w' := by
  simp only [ExceptT.run_bind, StateT.run_bind, h]
  rfl

theorem run_bind_error {x : ExceptT (List String) (StateM σ) α}
    {f : α → ExceptT (List String) (StateM σ) β} {e : List String} {w w' : σ}
    (h : x.run.run w = (.error e, w')) : (x >>= f).run.run w = (.error e, w') := by
  simp only [ExceptT.run_bind, StateT.run_bind, h]
  rfl

theorem run_ask {x : StateM σ α} {a : α} {w w' : σ} (h : x.run w = (a, w')) :
    (ask x).run.run w = (.ok a, w') := by
  simp only [ask, ExceptT.run_lift, StateT.run_map, h]
  rfl

theorem run_mapM_orChain {ε : Type} {chain : ε → List String} {f : α → Except ε β} {xs : List α}
    {ys : List β} (h : xs.map f = ys.map .ok) (w : σ) :
    (xs.mapM (m := ExceptT (List String) (StateM σ)) fun x => orChain chain (f x)).run.run w =
      (.ok ys, w) := by
  induction xs generalizing ys with
  | nil =>
    cases ys with
    | nil => rfl
    | cons => cases h
  | cons x xs ih =>
    cases ys with
    | nil => cases h
    | cons y ys =>
      obtain ⟨hfirst, hrest⟩ := List.cons.inj h
      have hok : (orChain (m := StateM σ) chain (f x)).run.run w = (.ok y, w) := by
        rw [hfirst]
        rfl
      rw [List.mapM_cons, run_bind_ok hok, run_bind_ok (ih hrest)]
      rfl

/-! ### Parts of the command -/

theorem run_openState (host : Host (StateM σ)) {c : Config} {directory : String}
    (hdirectory : c.resolvedDirectory host.environment = .ok directory) (w : σ) :
    (openState host c).run.run w =
      (((Agent.openStore host.files directory).run w).1.mapError Agent.OpenError.chain,
        ((Agent.openStore host.files directory).run w).2) := by
  have hfound : (Command.directory host c).run.run w = (.ok directory, w) := by
    rw [Command.directory, hdirectory]
    rfl
  rw [openState, run_bind_ok hfound]
  rcases h : (Agent.openStore host.files directory).run w with ⟨result, w'⟩
  rw [run_bind_ok (run_ask h)]
  cases result <;> rfl

/-- The agent after it has taken in some deployments. -/
def taken {κ : Type} (agent : Agent κ) (ds : List Deployment) : Agent κ :=
  { agent with intake := { agent.intake with
      waiting := agent.intake.waiting ++ (List.range' agent.intake.count ds.length).zip ds
      count := agent.intake.count + ds.length } }

theorem run_submissions {κ : Type} {agent : Agent κ} (hopen : agent.intake.closed = false)
    (tickets : List Ticket) (ds : List Deployment) (w : σ) :
    (ds.foldlM (m := ExceptT (List String) (StateM σ)) (fun (tickets, agent) d => do
        let (result, agent) := agent.submit d
        return (tickets ++ [← orChain (fun e => [e.message]) result], agent))
      (tickets, agent)).run.run w =
      (.ok (tickets ++ List.range' agent.intake.count ds.length, taken agent ds), w) := by
  induction ds generalizing agent tickets with
  | nil =>
    simp [taken]
    rfl
  | cons d ds ih =>
    have hsubmit : agent.submit d = (.ok agent.intake.count, taken agent [d]) := by
      simp [Agent.submit, Intake.submit, hopen, taken]
    have hrest : taken (taken agent [d]) ds = taken agent (d :: ds) := by
      simp [taken, List.range'_succ, Nat.add_assoc, Nat.add_comm 1]
    have hopen' : (taken agent [d]).intake.closed = false := hopen
    simp only [List.foldlM_cons, hsubmit]
    refine (ih hopen' (tickets ++ [agent.intake.count])).trans ?_
    rw [hrest]
    simp [List.range'_succ, taken]

theorem map_settle {tickets : List Ticket} (hnodup : tickets.Nodup)
    {outcomes : List Pipeline.Outcome} (hlength : tickets.length = outcomes.length) :
    tickets.map (Agent.settle (tickets.zip outcomes)) =
      outcomes.map fun o => o.result.mapError fun _ => .dropped := by
  induction tickets generalizing outcomes with
  | nil =>
    cases outcomes with
    | nil => rfl
    | cons => cases hlength
  | cons ticket tickets ih =>
    cases outcomes with
    | nil => cases hlength
    | cons outcome outcomes =>
      obtain ⟨hnot, hnodup⟩ := List.nodup_cons.1 hnodup
      rw [List.map_cons, List.map_cons, ← ih hnodup (Nat.succ.inj hlength)]
      refine congrArg₂ _ ?_ (List.map_congr_left fun other hother => ?_)
      · simp [Agent.settle]
      · have hne : (other == ticket) = false := by
          rw [beq_eq_false_iff_ne]
          rintro rfl
          exact hnot hother
        simp [Agent.settle, List.lookup_cons, hne]

/-! ### The command -/

/-- Running deployments from the command line is a session, as far as all can be counted. -/
theorem run_work (host : Host (StateM σ)) {c : Config} {directory : String}
    (hdirectory : c.resolvedDirectory host.environment = .ok directory) (ds : List Deployment)
    {w : σ}
    (hroom : (Session.mk (surroundings host c directory) ds).HasRoom host.files directory c w) :
    match (Session.mk (surroundings host c directory) ds).run host.files directory c w with
    | .error e => ((work host c ds).run.run w).1 = .error e.chain
    | .ok done => ∃ records, done.outcomes.map Pipeline.Outcome.result = records.map .ok ∧
        (work host c ds).run.run w = (.ok records, done.world) := by
  have hopen := run_openState host hdirectory w
  have hfound : ∀ w, (Command.directory host c).run.run w = (.ok directory, w) := by
    intro w
    rw [Command.directory, hdirectory]
    rfl
  rw [Session.run]
  rcases hstore : (Agent.openStore host.files directory).run w with ⟨result, w₁⟩
  rw [hstore] at hopen
  cases result with
  | error e => exact congrArg Prod.fst (run_bind_error hopen)
  | ok store =>
    dsimp only
    let env := surroundings host c directory
    let agent := Agent.start c store c.groups (Outbox.empty.attach id)
    let turns := Pipeline.inTurn env agent.pipeline w₁ ds
    have hcounted : Pipeline.HasRoom env agent.pipeline turns := hroom store w₁ hstore
    obtain ⟨records, hrecords, -⟩ := Pipeline.exists_records env hcounted
    refine ⟨records, hrecords, ?_⟩
    have hopened : agent.intake.closed = false := rfl
    have hnot : (taken agent ds).intake.stopping = false := rfl
    have hsubmitted := run_submissions hopened [] ds w₁
    have hwaiting : (taken agent ds).intake.waiting = (List.range' 0 ds.length).zip ds := rfl
    have htickets : (taken agent ds).intake.waiting.map Prod.fst = List.range' 0 ds.length := by
      rw [hwaiting, List.map_fst_zip (by simp)]
    have hdeployments : (taken agent ds).intake.waiting.map Prod.snd = ds := by
      rw [hwaiting, List.map_snd_zip (by simp)]
    obtain ⟨outbox, hworked⟩ := Pipeline.run_turns env hnot
      (Nat.lt_succ_self (taken agent ds).intake.waiting.length) w₁ (by rwa [hdeployments])
    rw [htickets, hdeployments] at hworked
    have hsettled : (List.range' 0 ds.length).map (Agent.settle
        ((List.range' 0 ds.length).zip (Pipeline.outcomes env agent.pipeline turns))) =
        records.map .ok := by
      rw [map_settle List.nodup_range' (by simp [turns])]
      have hmapped := congrArg (List.map (Except.mapError fun _ => IntakeError.dropped)) hrecords
      rw [List.map_map, List.map_map] at hmapped
      exact hmapped
    refine (run_bind_ok hopen).trans ?_
    refine (run_bind_ok (hfound w₁)).trans ?_
    refine (run_bind_ok hsubmitted).trans ?_
    refine (run_bind_ok (run_ask hworked)).trans ?_
    refine (run_bind_ok (run_mapM_orChain hsettled _)).trans ?_
    let w₂ := Pipeline.worldAfter env agent.pipeline w₁ ds
    let accept : Publisher → Report → StateM σ (Bool × List Report) := fun _ _ => pure (true, [])
    have haccept : ∀ consumer report w, ((accept consumer report).run w).2 = w := fun _ _ _ => rfl
    have hworld := Outbox.world_publishAll haccept outbox.pending Channel.all outbox w₂
    rcases hpublished : (outbox.publishAll accept outbox.pending Channel.all).run w₂ with
      ⟨⟨count, outbox'⟩, w₃⟩
    rw [hpublished] at hworld
    have hworld' : w₃ = w₂ := hworld
    let worked : Agent Publisher := ⟨Pipeline.run env agent.pipeline turns,
      { (taken agent ds).intake with waiting := [] }, outbox⟩
    have hflushed : (worked.flush accept outbox.pending).run w₂ =
        ((count, { worked with outbox := outbox' }), w₂) := by
      rw [Agent.flush, Store.run_bind_of_run hpublished, hworld']
      rfl
    exact run_bind_ok (run_ask hflushed)

end Command
end Rollout
