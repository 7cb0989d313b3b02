import Rollout.Proofs.Reporting.Account

/-!
# Reports from end to end

A flush and a turn of the worker are made of the steps of courier and worker.  So each deployment is
reported as its record tells, in its order and once, in job updates and, with its end, in fleet
updates; and a flush while the transport is online leaves nothing behind.
-/

namespace Rollout.Reporting

variable {σ : Type}

/-! ### Deliveries -/

/-- A publisher as a consumer of reports. -/
def consume (publisher : Publisher) (r : Report) : StateM Transport (Bool × List Report) := fun t =>
  (((publisher.send r t).1, []), (publisher.send r t).2)

theorem run_consume {publisher : Publisher} {r : Report} {t t' : Transport} {answer : Bool}
    (h : publisher.send r t = (answer, t')) :
    (consume publisher r).run t = ((answer, []), t') := by
  have hrun : (consume publisher r).run t =
      (((publisher.send r t).1, []), (publisher.send r t).2) := rfl
  rw [hrun, h]

@[simp] theorem enqueueAll_nil (outbox : Outbox Publisher) : outbox.enqueueAll [] = outbox := by
  simp [Outbox.enqueueAll]

section Showing

variable {publisher : Publisher} {rest : List Publisher} {r : Report} {outbox : Outbox Publisher}
  {t t' : Transport}

theorem run_showTo_accepted (h : publisher.send r t = (true, t')) :
    (Outbox.showTo consume r (publisher :: rest) outbox).run t =
      (Outbox.showTo consume r rest outbox).run t' := by
  have hcons := @Outbox.run_showTo_cons _ _ consume r ⟨outbox, t⟩ _ rest _ _ _ (run_consume h)
  rw [enqueueAll_nil, if_pos rfl] at hcons
  exact hcons

theorem run_showTo_refused (h : publisher.send r t = (false, t')) :
    (Outbox.showTo consume r (publisher :: rest) outbox).run t = ((false, outbox), t') := by
  have hcons := @Outbox.run_showTo_cons _ _ consume r ⟨outbox, t⟩ _ rest _ _ _ (run_consume h)
  rw [enqueueAll_nil, if_neg Bool.false_ne_true] at hcons
  exact hcons

theorem run_deliver_shown {channel : Channel} {publishers : List Publisher} {limit : Nat}
    (hfront : (outbox.queue channel).head? = some r)
    (hshown : (Outbox.showTo consume r publishers outbox).run t = ((true, outbox), t')) :
    (Outbox.deliver consume channel publishers (limit + 1) outbox).run t =
      let rest := (Outbox.deliver consume channel publishers limit (outbox.pop channel)).run t'
      ((rest.1.1 + 1, rest.1.2), rest.2) := by
  have hrun := @Outbox.run_deliver_succ _ _ consume limit channel publishers r ⟨outbox, t⟩ hfront
    _ _ _ hshown
  rwa [if_pos rfl] at hrun

theorem run_deliver_refused {channel : Channel} {publishers : List Publisher} {limit : Nat}
    (hfront : (outbox.queue channel).head? = some r)
    (hshown : (Outbox.showTo consume r publishers outbox).run t = ((false, outbox), t')) :
    (Outbox.deliver consume channel publishers (limit + 1) outbox).run t = ((0, outbox), t') := by
  have hrun := @Outbox.run_deliver_succ _ _ consume limit channel publishers r ⟨outbox, t⟩ hfront
    _ _ _ hshown
  rwa [if_neg Bool.false_ne_true] at hrun

theorem run_deliver_empty {channel : Channel} (hempty : outbox.queue channel = [])
    (publishers : List Publisher) (limit : Nat) (t : Transport) :
    (Outbox.deliver consume channel publishers limit outbox).run t = ((0, outbox), t) := by
  have hfront : (outbox.queue channel).head? = none := List.head?_eq_none_iff.2 hempty
  exact @Outbox.run_deliver_none _ _ consume limit channel publishers ⟨outbox, t⟩ hfront

/-- An online transport accepts every report. -/
theorem showTo_online (r : Report) (outbox : Outbox Publisher) (publishers : List Publisher)
    (honline : t.offline = false) :
    ∃ t', (Outbox.showTo consume r publishers outbox).run t = ((true, outbox), t') ∧
      t'.offline = false := by
  induction publishers generalizing t with
  | nil => exact ⟨t, rfl, honline⟩
  | cons publisher rest ih =>
    rcases hsend : publisher.send r t with ⟨answer, t₁⟩
    cases answer with
    | true =>
      have honline₁ : t₁.offline = false := by
        cases publisher with
        | jobs =>
          obtain ⟨-, rfl⟩ := send_jobs hsend
          exact honline
        | fleet =>
          cases send_fleet hsend
          exact honline
      rw [run_showTo_accepted hsend]
      exact ih honline₁
    | false =>
      obtain ⟨hoffline, -⟩ := send_refused hsend
      rw [honline] at hoffline
      cases hoffline

theorem deliver_online {channel : Channel} (publishers : List Publisher) {limit : Nat}
    (hlimit : (outbox.queue channel).length ≤ limit) (honline : t.offline = false) :
    ∃ n outbox' t', (Outbox.deliver consume channel publishers limit outbox).run t =
        ((n, outbox'), t') ∧ t'.offline = false ∧ outbox'.queue channel = [] ∧
      ∀ other, channel ≠ other → outbox'.queue other = outbox.queue other := by
  induction limit generalizing outbox t with
  | zero =>
    have hempty : outbox.queue channel = [] := List.length_eq_zero_iff.1 (Nat.le_zero.1 hlimit)
    exact ⟨0, outbox, t, rfl, honline, hempty, fun _ _ => rfl⟩
  | succ limit ih =>
    cases hqueue : outbox.queue channel with
    | nil => exact ⟨0, outbox, t, run_deliver_empty hqueue _ _ t, honline, hqueue, fun _ _ => rfl⟩
    | cons r rest =>
      have hfront : (outbox.queue channel).head? = some r := by rw [hqueue]; rfl
      obtain ⟨t₁, hshown, honline₁⟩ := showTo_online r outbox publishers honline
      have hshorter : ((outbox.pop channel).queue channel).length ≤ limit := by
        rw [Outbox.queue_pop, List.length_tail]
        omega
      obtain ⟨n, outbox', t', hrest, honline', hempty, hothers⟩ := ih hshorter honline₁
      refine ⟨n + 1, outbox', t', ?_, honline', hempty, fun other hother => ?_⟩
      · rw [run_deliver_shown hfront hshown, hrest]
      · rw [hothers other hother, Outbox.queue_pop_of_ne hother]

theorem run_publishAll_cons {channel : Channel} {channels : List Channel} {limit n : Nat}
    {outbox' : Outbox Publisher}
    (h : (outbox.publish consume limit channel).run t = ((n, outbox'), t')) :
    (outbox.publishAll consume limit (channel :: channels)).run t =
      let rest := (outbox'.publishAll consume limit channels).run t'
      ((n + rest.1.1, rest.1.2), rest.2) := by
  rw [Outbox.publishAll, StateT.run_bind, h]
  rfl

theorem publishAll_online {limit : Nat} (channels : List Channel)
    (hlimit : ∀ channel ∈ channels, (outbox.queue channel).length ≤ limit)
    (honline : t.offline = false) :
    ∃ n outbox' t', (outbox.publishAll consume limit channels).run t = ((n, outbox'), t') ∧
      ∀ channel, channel ∈ channels ∨ outbox.queue channel = [] → outbox'.queue channel = [] := by
  induction channels generalizing outbox t with
  | nil =>
    refine ⟨0, outbox, t, rfl, fun channel hor => ?_⟩
    rcases hor with hmem | hempty
    · cases hmem
    · exact hempty
  | cons channel channels ih =>
    obtain ⟨hfirst, hothers⟩ := List.forall_mem_cons.1 hlimit
    obtain ⟨n, outbox₁, t₁, hrun, honline₁, hempty, hkept⟩ :=
      deliver_online (outbox.consumers channel) hfirst honline
    have hkeeps : ∀ other, outbox.queue other = [] → outbox₁.queue other = [] := by
      intro other hnone
      by_cases hsame : channel = other
      · rw [← hsame, hempty]
      · rw [hkept other hsame, hnone]
    have hlimit₁ : ∀ other ∈ channels, (outbox₁.queue other).length ≤ limit := by
      intro other hmem
      by_cases hsame : channel = other
      · rw [← hsame, hempty]
        exact Nat.zero_le limit
      · rw [hkept other hsame]
        exact hothers other hmem
    obtain ⟨n', outbox₂, t₂, hrest, hall⟩ := ih hlimit₁ honline₁
    refine ⟨n + n', outbox₂, t₂, ?_, fun other hor => hall other ?_⟩
    · rw [run_publishAll_cons hrun, hrest]
    · rcases hor with hmem | hnone
      · rcases List.mem_cons.1 hmem with rfl | hmem
        · exact .inr hempty
        · exact .inl hmem
      · exact .inr (hkeeps other hnone)

end Showing

/-! ### What the agent does, in steps -/

section Steps

variable {env : Surroundings (StateM σ)} {p : Pipeline} {s s' s'' : State}
  {log more : List (Action σ)} {a : Action σ} {due : List Report}

theorem Run.cons (hstep : Step env s a s') (h : Run env s' more s'') : Run env s (a :: more) s'' :=
  (Run.start.step hstep).trans h

variable (env) in
theorem run_showing {channel : Channel} {r : Report} (publishers : List Publisher)
    (hshows : s.courier = .showing channel r publishers) :
    ∃ (more : List (Action σ)) (all : Bool) (t' : Transport), processed more = [] ∧
      (Outbox.showTo consume r publishers s.outbox).run s.transport = ((all, s.outbox), t') ∧
      Run env s more
        { s with transport := t', courier := if all then .showing channel r [] else .resting } := by
  induction publishers generalizing s with
  | nil =>
    refine ⟨[], true, s.transport, rfl, rfl, ?_⟩
    rw [if_pos rfl, ← hshows]
    exact .start
  | cons publisher rest ih =>
    rcases hsend : publisher.send r s.transport with ⟨answer, t₁⟩
    cases answer with
    | true =>
      let s₁ : State := { s with transport := t₁, courier := .showing channel r rest }
      have hshows₁ : s₁.courier = .showing channel r rest := rfl
      obtain ⟨more, all, t', hnone, hrest, hrun⟩ := ih hshows₁
      refine ⟨.offer publisher r true :: more, all, t', hnone, ?_,
        .cons (.accept hshows hsend) hrun⟩
      rw [run_showTo_accepted hsend]
      exact hrest
    | false =>
      exact ⟨[.offer publisher r false], false, t₁, rfl, run_showTo_refused hsend,
        .cons (.refuse hshows hsend) .start⟩

theorem length_queue_pop_le (outbox : Outbox Publisher) (channel other : Channel) :
    ((outbox.pop channel).queue other).length ≤ (outbox.queue other).length := by
  by_cases h : channel = other
  · subst h
    rw [Outbox.queue_pop, List.length_tail]
    exact Nat.sub_le _ _
  · rw [Outbox.queue_pop_of_ne h]

variable (env) in
theorem run_delivering {channel : Channel} {limit : Nat} (hlooks : s.courier = .looking channel)
    (hlimit : (s.outbox.queue channel).length ≤ limit) :
    ∃ (more : List (Action σ)) (n : Nat) (outbox' : Outbox Publisher) (t' : Transport),
      processed more = [] ∧
      (Outbox.deliver consume channel (s.outbox.consumers channel) limit s.outbox).run s.transport =
        ((n, outbox'), t') ∧
      (∀ other, (outbox'.queue other).length ≤ (s.outbox.queue other).length) ∧
      Run env s more { s with outbox := outbox', transport := t', courier := .resting } := by
  induction limit generalizing s with
  | zero =>
    have hempty : s.outbox.queue channel = [] := List.length_eq_zero_iff.1 (Nat.le_zero.1 hlimit)
    exact ⟨[.look none], 0, s.outbox, s.transport, rfl, rfl, fun _ => Nat.le_refl _,
      .cons (.rest hlooks (List.head?_eq_none_iff.2 hempty)) .start⟩
  | succ limit ih =>
    cases hqueue : s.outbox.queue channel with
    | nil =>
      exact ⟨[.look none], 0, s.outbox, s.transport, rfl, run_deliver_empty hqueue _ _ _,
        fun _ => Nat.le_refl _, .cons (.rest hlooks (List.head?_eq_none_iff.2 hqueue)) .start⟩
    | cons r rest =>
      have hfront : (s.outbox.queue channel).head? = some r := by rw [hqueue]; rfl
      let s₁ : State := { s with courier := .showing channel r (s.outbox.consumers channel) }
      have hshows : s₁.courier = .showing channel r (s.outbox.consumers channel) := rfl
      obtain ⟨first, all, t₁, hfirst, hshown, hrun⟩ := run_showing env _ hshows
      have hlook : Run env s (.look (some r) :: first) _ := .cons (.look hlooks hfront) hrun
      cases all with
      | false =>
        exact ⟨.look (some r) :: first, 0, s.outbox, t₁, hfirst, run_deliver_refused hfront hshown,
          fun _ => Nat.le_refl _, hlook⟩
      | true =>
        let s₂ : State :=
          { s with outbox := s.outbox.pop channel, transport := t₁, courier := .looking channel }
        have hlooks₂ : s₂.courier = .looking channel := rfl
        have hshorter : (s₂.outbox.queue channel).length ≤ limit := by
          rw [Outbox.queue_pop, List.length_tail]
          omega
        obtain ⟨others, n, outbox', t', hothers, hrest, hle, hrun'⟩ := ih hlooks₂ hshorter
        refine ⟨.look (some r) :: first ++ .remove r :: others, n + 1, outbox', t', ?_, ?_,
          fun other => (hle other).trans (length_queue_pop_le s.outbox channel other), ?_⟩
        · have hsplit : processed (.look (some r) :: first ++ .remove r :: others) =
              processed first ++ processed others := List.filterMap_append
          rw [hsplit, hfirst, hothers]
          rfl
        · rw [run_deliver_shown hfront hshown]
          exact congrArg (fun result : (Nat × Outbox Publisher) × Transport =>
            ((result.1.1 + 1, result.1.2), result.2)) hrest
        · exact hlook.trans (.cons (.remove rfl) hrun')

variable (env) in
theorem run_publishing {limit : Nat} (channels : List Channel) (hrests : s.courier = .resting)
    (hlimit : ∀ channel, (s.outbox.queue channel).length ≤ limit) :
    ∃ (more : List (Action σ)) (n : Nat) (outbox' : Outbox Publisher) (t' : Transport),
      processed more = [] ∧
      (s.outbox.publishAll consume limit channels).run s.transport = ((n, outbox'), t') ∧
      Run env s more { s with outbox := outbox', transport := t' } := by
  induction channels generalizing s with
  | nil => exact ⟨[], 0, s.outbox, s.transport, rfl, rfl, .start⟩
  | cons channel channels ih =>
    let s₁ : State := { s with courier := .looking channel }
    have hlooks : s₁.courier = .looking channel := rfl
    obtain ⟨first, n, outbox₁, t₁, hfirst, hpublish, hle, hrun⟩ :=
      run_delivering env hlooks (hlimit channel)
    let s₂ : State := { s with outbox := outbox₁, transport := t₁, courier := .resting }
    have hrests₂ : s₂.courier = .resting := rfl
    obtain ⟨others, n', outbox', t', hothers, hrest, hrun'⟩ :=
      ih hrests₂ fun other => (hle other).trans (hlimit other)
    have hturn : Run env s (.turnTo channel :: first) s₂ := .cons (.turnTo hrests channel) hrun
    refine ⟨.turnTo channel :: first ++ others, n + n', outbox', t', ?_, ?_, ?_⟩
    · have hsplit : processed (.turnTo channel :: first ++ others) =
          processed first ++ processed others := List.filterMap_append
      rw [hsplit, hfirst, hothers]
      rfl
    · rw [run_publishAll_cons hpublish]
      exact congrArg (fun result : (Nat × Outbox Publisher) × Transport =>
        ((n + result.1.1, result.1.2), result.2)) hrest
    · rw [hrests]
      exact hturn.trans hrun'

theorem run_flush {limit n : Nat} {outbox' : Outbox Publisher} {t t' : Transport}
    (agent : Agent Publisher)
    (h : (agent.outbox.publishAll consume limit Channel.all).run t = ((n, outbox'), t')) :
    (agent.flush consume limit).run t = ((n, { agent with outbox := outbox' }), t') := by
  rw [Agent.flush, StateT.run_bind, h]
  rfl

theorem pending_eq_zero {outbox : Outbox Publisher} (h : ∀ channel, outbox.queue channel = []) :
    outbox.pending = 0 := by
  rw [Outbox.pending, List.length_eq_zero_iff, List.eq_nil_iff_forall_not_mem]
  intro r hmem
  have hqueued : r ∈ outbox.queue r.channel := List.mem_filter.2 ⟨hmem, decide_eq_true rfl⟩
  rw [h] at hqueued
  cases hqueued

variable (env) in
/-- A flush is made of steps of the courier and leaves nothing behind if the transport is online. -/
theorem flush_eq (hrests : s.courier = .resting) (intake : Intake) {limit : Nat}
    (hlimit : s.outbox.pending ≤ limit) :
    ∃ (n : Nat) (agent : Agent Publisher) (t' : Transport) (more : List (Action σ)),
      ((⟨s.pipeline, intake, s.outbox⟩ : Agent Publisher).flush consume limit).run s.transport =
        ((n, agent), t') ∧
      (s.transport.offline = false → agent.outbox.pending = 0) ∧ processed more = [] ∧
      Run env s more { s with outbox := agent.outbox, transport := t' } := by
  have hlimits : ∀ channel, (s.outbox.queue channel).length ≤ limit := fun channel =>
    (List.length_filter_le _ _).trans hlimit
  obtain ⟨more, n, outbox', t', hmore, hpublish, hrun⟩ :=
    run_publishing env Channel.all hrests hlimits
  refine ⟨n, ⟨s.pipeline, intake, outbox'⟩, t', more, run_flush _ hpublish, fun honline => ?_,
    hmore, hrun⟩
  obtain ⟨n₁, outbox₁, t₁, honline', hempty⟩ :=
    publishAll_online Channel.all (fun channel _ => hlimits channel) honline
  cases hpublish.symm.trans honline'
  refine pending_eq_zero fun channel => hempty channel (.inl ?_)
  cases channel <;> decide

variable (env) in
theorem run_telling (hdue : s.due = due) :
    ∃ more : List (Action σ), processed more = [] ∧
      Run env s more { s with due := [], outbox := s.outbox.enqueueAll due } := by
  induction due generalizing s with
  | nil =>
    refine ⟨[], rfl, ?_⟩
    rw [enqueueAll_nil, ← hdue]
    exact .start
  | cons r rest ih =>
    let s₁ : State := { s with due := rest, outbox := s.outbox.enqueue r }
    have hdue₁ : s₁.due = rest := rfl
    obtain ⟨more, hmore, hrun⟩ := ih hdue₁
    refine ⟨.tell r :: more, hmore, .cons (.tell hdue) ?_⟩
    have hqueue : (s.outbox.enqueue r).enqueueAll rest = s.outbox.enqueueAll (r :: rest) := by
      simp [Outbox.enqueue, Outbox.enqueueAll]
    rw [← hqueue]
    exact hrun

/-- Whether a turn of the worker of an agent that has come to a state, with a deployment that waits,
is made of steps of the worker. -/
def WorksAs (env : Surroundings (StateM σ)) (s : State) : Prop :=
  ∀ (agent : Agent Publisher) (ticket : Ticket) (d : Deployment)
    (rest : List (Ticket × Deployment)) (w : σ),
    agent.pipeline = s.pipeline → agent.outbox = s.outbox → agent.intake.stopping = false →
    agent.intake.waiting = (ticket, d) :: rest →
    ∃ (outcome : Pipeline.Outcome) (agent' : Agent Publisher) (w' : σ) (more : List (Action σ)),
      (agent.turn env).run w = ((some (ticket, outcome), agent'), w') ∧
      processed more = [⟨d, w⟩] ∧
      Run env s more
        { s with
          pipeline := agent'.pipeline, outbox := agent'.outbox, halted := outcome.isExhausted }

theorem worksAs (env : Surroundings (StateM σ)) (hthere : s.halted = false) (hdue : s.due = []) :
    WorksAs env s := by
  intro agent ticket d rest w hpipeline houtbox hnot hsome
  let t : Pipeline.Turn σ := ⟨d, w⟩
  let s₁ : State := { s with
    pipeline := t.next env s.pipeline
    due := (t.outcome env s.pipeline).reports
    halted := (t.outcome env s.pipeline).isExhausted }
  have hdue₁ : s₁.due = (t.outcome env s.pipeline).reports := rfl
  obtain ⟨more, hmore, hrun⟩ := run_telling env hdue₁
  refine ⟨_, _, _, .work t :: more, Pipeline.run_turn_some env hnot hsome w,
    congrArg (t :: ·) hmore, ?_⟩
  rw [hpipeline, houtbox]
  have hall := Run.cons (.work hthere hdue t) hrun
  rwa [← hdue] at hall

theorem forall₂_tells {p : Pipeline} {turns : List (Pipeline.Turn σ)}
    (hroom : Pipeline.HasRoom env p turns) :
    List.Forall₂ (fun t outcome => ∃ r, outcome.Tells t.deployment r) turns
      (Pipeline.outcomes env p turns) := by
  induction turns generalizing p with
  | nil => exact .nil
  | cons t turns ih => exact .cons (Pipeline.exists_tells hroom.cons.1) (ih hroom.cons.2)

/-- What the reports of the processed deployments tell. -/
theorem Worked.tells (h : Worked env p log s) :
    ∃ counted uncounted, processed log = counted ++ uncounted ∧
      List.Forall₂ (fun t outcome => ∃ r, outcome.Tells t.deployment r) counted
        (Pipeline.outcomes env p counted) ∧
      (uncounted = [] ∨ ∃ t, uncounted = [t] ∧
        (t.outcome env (Pipeline.run env p counted)).BreaksOff t.deployment ∧
        ¬s.pipeline.store.Room ∧ s.halted = true) := by
  rcases h.counted with hroom | ⟨before, t, hsplit, hroom, hlast, hhalted⟩
  · exact ⟨processed log, [], (List.append_nil _).symm, forall₂_tells hroom, .inl rfl⟩
  · obtain ⟨-, hsame, hfull⟩ := Pipeline.stopped_of_isExhausted hlast
    refine ⟨before, [t], hsplit, forall₂_tells hroom,
      .inr ⟨t, rfl, Pipeline.breaksOff hlast, ?_, hhalted⟩⟩
    rw [h.pipeline, hsplit, Pipeline.run_append, Pipeline.run_cons, hsame]
    exact hfull

end Steps

/-- In every interleaving of the worker, the courier and a transport that goes offline and comes
back, but not between its two publishers:

* The worker has done what comes of the processed deployments one after another, and the reports of
  each of them are one that it was being applied, if it was and came as a job, and one of its end.
  They and the updates made of them have what the record has.  Only the last deployment may have no
  report of its end, if it could not be counted, and then the worker is gone.
* In every channel the reports that were accepted as job updates, then those that wait, then those
  that are not queued yet are the reports of the processed deployments, in order.
* The transport has the job updates of the accepted reports and the fleet updates of the final ones
  among them, only that the fleet may lack the last one while a publisher has not seen it.
* A turn of the worker of an agent and a flush are made of these steps, and a flush leaves nothing
  behind if the transport is online. -/
theorem reported_exactly_once {σ : Type} (env : Surroundings (StateM σ)) (p : Pipeline)
    {log : List (Action σ)} {s : State} (h : Run env (.start p) log s) :
    (s.pipeline = Pipeline.run env p (processed log) ∧
      ∃ counted uncounted, processed log = counted ++ uncounted ∧
        List.Forall₂ (fun t outcome => ∃ r, outcome.Tells t.deployment r) counted
          (Pipeline.outcomes env p counted) ∧
        (uncounted = [] ∨ ∃ t, uncounted = [t] ∧
          (t.outcome env (Pipeline.run env p counted)).BreaksOff t.deployment ∧
          ¬s.pipeline.store.Room ∧ s.halted = true)) ∧
    (∀ channel, ofChannel channel (accepted .jobs log) ++ s.pending channel ++
        ofChannel channel s.due = ofChannel channel (reportsOf env p (processed log)) ∧
      (s.courier = .resting → s.pending channel = s.outbox.queue channel)) ∧
    (s.transport.jobs = (accepted .jobs log).map .ofReport ∧
      s.transport.fleet = (finals (accepted .fleet log)).map .ofReport ∧
      accepted .jobs log = accepted .fleet log ++
        if s.courier.isBetween then s.courier.inFlight .jobs else []) ∧
    (s.halted = false → s.due = [] → WorksAs env s) ∧
    (s.courier = .resting → ∀ (intake : Intake) (limit : Nat), s.outbox.pending ≤ limit →
      ∃ (n : Nat) (agent : Agent Publisher) (t' : Transport) (more : List (Action σ)),
        ((⟨s.pipeline, intake, s.outbox⟩ : Agent Publisher).flush consume limit).run s.transport =
          ((n, agent), t') ∧
        (s.transport.offline = false → agent.outbox.pending = 0) ∧ processed more = [] ∧
        Run env s more { s with outbox := agent.outbox, transport := t' }) := by
  have hshown := shown_run h
  refine ⟨⟨(worked_run h).pipeline, (worked_run h).tells⟩,
    fun channel => ⟨accepted_append_pending h channel, fun hrests => ?_⟩,
    ⟨hshown.jobs, hshown.fleet, ?_⟩, worksAs env, fun hrests intake _ hlimit => ?_⟩
  · exact pending_of_resting hrests channel
  · rw [hshown.publishers, hshown.publishers, List.append_assoc, ← (sound_run h).inFlight_jobs]
  · exact flush_eq env hrests intake hlimit

/-- A job whose plan fails, processed while the transport is offline and reported when it has come
back. -/
theorem reported_after_offline :
    let env := { Pipeline.quiet .empty with apply := fun _ => pure (.error ⟨"out of order", none⟩) }
    let p := Pipeline.start ⟨.empty, false⟩ .empty .empty
    let t : Pipeline.Turn Unit := ⟨⟨.jobs, .document (Pipeline.bare "d" "thinggroup/a" 1)⟩, ()⟩
    let failed : Details := ⟨some "APPLY_FAILED", ["DEPLOYMENT_FAILURE", "COMPONENT_UPDATE_ERROR"],
      ["COMPONENT_ERROR"], some "Failed to apply deployment: out of order"⟩
    ∃ log s n agent transport r, Run env (.start p) log s ∧ processed log = [t] ∧
      s.transport.jobs = [] ∧ s.outbox.pending = 2 ∧
      (t.outcome env p).Tells t.deployment r ∧ failed.Give r ∧
      ((⟨s.pipeline, .new, s.outbox⟩ : Agent Publisher).flush consume 2).run s.transport =
        ((n, agent), transport) ∧
      agent.outbox.pending = 0 ∧
      transport.jobs.map (fun u => (u.deployment, u.status, u.details)) =
        [("d", .inProgress, ⟨none, [], [], none⟩), ("d", .failed, failed)] ∧
      transport.fleet.map (fun u => (u.deployment, u.status, u.details)) =
        [("thinggroup/a", .failed, failed)] := by
  intro env p t failed
  have hstart : Run env (.start p) [] (.start p) := .start
  have hwork := (hstart.step (.switch rfl true)).step (.work rfl rfl t)
  have htold := (hwork.step (.tell rfl)).step (.tell rfl)
  have hshown := (htold.step (.turnTo rfl .jobs)).step (.look rfl rfl)
  have hback := (hshown.step (.refuse rfl rfl)).step (.switch rfl false)
  obtain ⟨⟨-, counted, uncounted, hsplit, htells, hlast⟩, -, -, -, hflush⟩ :=
    reported_exactly_once env p hback
  obtain ⟨n, agent, transport, -, hrun, hnothing, -⟩ := hflush rfl .new 2 (by decide +kernel)
  have hcounted : uncounted = [] := by
    rcases hlast with hnone | ⟨-, -, -, hfull, -⟩
    · exact hnone
    · exact absurd (by decide +kernel) hfull
  subst hcounted
  cases (List.append_nil counted).symm.trans hsplit.symm
  cases htells with
  | cons hfirst _ =>
  obtain ⟨r, hr⟩ := hfirst
  have hfailed : failed.Give r := by
    obtain ⟨r', hr', hsays⟩ : ∃ r', (t.outcome env p).result = .ok r' ∧
        (r'.detailedStatus, r'.errorStack, r'.errorKinds, r'.cause) = (some .applyFailed,
          [.deploymentFailure, .componentUpdateError], [.component],
          some "Failed to apply deployment: out of order") := ⟨_, rfl, rfl⟩
    cases hr.result.symm.trans hr'
    obtain ⟨hstatus, hstack, hkinds, hcause⟩ := by simpa only [Prod.mk.injEq] using hsays
    constructor
    · rw [hstatus]; rfl
    · rw [hstack]; rfl
    · rw [hkinds]; rfl
    · rw [hcause]
  have htransport := congrArg Prod.snd hrun
  refine ⟨_, _, n, agent, transport, r, hback, rfl, rfl, by decide +kernel, hr, hfailed, hrun,
    hnothing rfl, ?_⟩
  subst htransport
  decide +kernel

end Rollout.Reporting
