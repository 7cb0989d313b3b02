import Rollout.Proofs.Delivery
import Rollout.Proofs.Reporting.Reports
import Rollout.Report.Transport

/-!
# Reports on their way

A worker processes deployments and queues their reports, while a courier shows the queued reports to
the two publishers of a transport, which goes offline and comes back.  In every interleaving of
these steps each report is due, waits or has been accepted, in the order of the deployments.
-/

namespace Rollout

namespace Reporting

/-! ### Steps -/

/-- Where the courier stands that delivers the reports. -/
inductive Courier where
  | resting
  /-- It is about to look for the oldest report of a channel. -/
  | looking (channel : Channel)
  /-- It shows a report to those publishers of the channel that have not seen it. -/
  | showing (channel : Channel) (r : Report) (rest : List Publisher)
  deriving DecidableEq

/-- Whether one publisher has accepted a report that the other one has not seen. -/
def Courier.isBetween : Courier → Bool
  | showing _ _ [.fleet] => true
  | _ => false

structure State where
  pipeline : Pipeline
  /-- The reports of the last deployment that are not queued yet. -/
  due : List Report
  outbox : Outbox Publisher
  transport : Transport
  courier : Courier
  /-- Whether the worker is gone: it could not count an acceptance. -/
  halted : Bool

/-- An agent that has processed nothing, with a transport as its only consumer of reports. -/
def State.start (p : Pipeline) : State := ⟨p, [], Outbox.empty.attach id, .new, .resting, false⟩

/-- What happens between the worker and the transport. -/
inductive Action (σ : Type) where
  | work (t : Pipeline.Turn σ)
  | tell (r : Report)
  | switch (offline : Bool)
  | turnTo (channel : Channel)
  | look (found : Option Report)
  | offer (publisher : Publisher) (r : Report) (accepted : Bool)
  | remove (r : Report)

variable {σ : Type}

/-- The steps of the worker (`work` and `tell`), of the transport (`switch`) and of the courier.
The transport does not switch between the two publishers of one report.  A deployment is processed
in one step, with its reports queued after that: only the queue is seen by the others. -/
inductive Step (env : Surroundings (StateM σ)) : State → Action σ → State → Prop
  | work {s : State} (hthere : s.halted = false) (hdue : s.due = []) (t : Pipeline.Turn σ) :
    Step env s (.work t)
      { s with
        pipeline := t.next env s.pipeline
        due := (t.outcome env s.pipeline).reports
        halted := (t.outcome env s.pipeline).isExhausted }
  | tell {s : State} {r : Report} {rest : List Report} (hdue : s.due = r :: rest) :
    Step env s (.tell r) { s with due := rest, outbox := s.outbox.enqueue r }
  | switch {s : State} (hbetween : s.courier.isBetween = false) (offline : Bool) :
    Step env s (.switch offline) { s with transport := { s.transport with offline := offline } }
  | turnTo {s : State} (hrests : s.courier = .resting) (channel : Channel) :
    Step env s (.turnTo channel) { s with courier := .looking channel }
  | rest {s : State} {channel : Channel} (hlooks : s.courier = .looking channel)
      (hnone : (s.outbox.queue channel).head? = none) :
    Step env s (.look none) { s with courier := .resting }
  | look {s : State} {channel : Channel} {r : Report} (hlooks : s.courier = .looking channel)
      (hsome : (s.outbox.queue channel).head? = some r) :
    Step env s (.look (some r))
      { s with courier := .showing channel r (s.outbox.consumers channel) }
  | accept {s : State} {channel : Channel} {r : Report} {publisher : Publisher}
      {rest : List Publisher} (hshows : s.courier = .showing channel r (publisher :: rest))
      {transport : Transport} (hsend : publisher.send r s.transport = (true, transport)) :
    Step env s (.offer publisher r true)
      { s with transport := transport, courier := .showing channel r rest }
  | refuse {s : State} {channel : Channel} {r : Report} {publisher : Publisher}
      {rest : List Publisher} (hshows : s.courier = .showing channel r (publisher :: rest))
      {transport : Transport} (hsend : publisher.send r s.transport = (false, transport)) :
    Step env s (.offer publisher r false)
      { s with transport := transport, courier := .resting }
  | remove {s : State} {channel : Channel} {r : Report}
      (hshown : s.courier = .showing channel r []) :
    Step env s (.remove r)
      { s with outbox := s.outbox.pop channel, courier := .looking channel }

/-- What can come of a state, with all that happens on the way. -/
inductive Run (env : Surroundings (StateM σ)) (first : State) : List (Action σ) → State → Prop
  | start : Run env first [] first
  | step {log : List (Action σ)} {s s' : State} {a : Action σ} :
    Run env first log s → Step env s a s' → Run env first (log ++ [a]) s'

theorem Run.trans {env : Surroundings (StateM σ)} {first s s' : State} {log more : List (Action σ)}
    (h : Run env first log s) (hmore : Run env s more s') : Run env first (log ++ more) s' := by
  induction hmore with
  | start => rwa [List.append_nil]
  | step _ hstep ih =>
    rw [← List.append_assoc]
    exact ih.step hstep

/-! ### What has happened -/

/-- The deployments that were processed, in their order. -/
def processed (log : List (Action σ)) : List (Pipeline.Turn σ) :=
  log.filterMap fun
    | .work t => some t
    | _ => none

def told (log : List (Action σ)) : List Report :=
  log.filterMap fun
    | .tell r => some r
    | _ => none

def removed (log : List (Action σ)) : List Report :=
  log.filterMap fun
    | .remove r => some r
    | _ => none

/-- The reports that a publisher has accepted, in their order. -/
def accepted (publisher : Publisher) (log : List (Action σ)) : List Report :=
  log.filterMap fun
    | .offer publisher' r true => if publisher' = publisher then some r else none
    | _ => none

/-- The reports of one channel. -/
def ofChannel (channel : Channel) (reports : List Report) : List Report :=
  reports.filter fun r => r.channel = channel

/-- The reports that belong to the processed deployments. -/
def reportsOf (env : Surroundings (StateM σ)) (p : Pipeline) (turns : List (Pipeline.Turn σ)) :
    List Report :=
  (Pipeline.outcomes env p turns).flatMap Pipeline.Outcome.reports

section Log

variable (log : List (Action σ)) (a : Action σ)

theorem processed_snoc : processed (log ++ [a]) = processed log ++ processed [a] :=
  List.filterMap_append

theorem told_snoc : told (log ++ [a]) = told log ++ told [a] := List.filterMap_append

theorem removed_snoc : removed (log ++ [a]) = removed log ++ removed [a] := List.filterMap_append

theorem accepted_snoc (publisher : Publisher) :
    accepted publisher (log ++ [a]) = accepted publisher log ++ accepted publisher [a] :=
  List.filterMap_append

end Log

theorem ofChannel_append (channel : Channel) (reports more : List Report) :
    ofChannel channel (reports ++ more) = ofChannel channel reports ++ ofChannel channel more :=
  List.filter_append ..

theorem ofChannel_singleton (channel : Channel) (r : Report) :
    ofChannel channel [r] = if r.channel = channel then [r] else [] := by
  by_cases h : r.channel = channel <;> simp [ofChannel, h]

/-! ### The courier -/

/-- The reports that a publisher has accepted and that still wait for the others. -/
def Courier.inFlight (publisher : Publisher) : Courier → List Report
  | showing _ r rest => if publisher ∈ rest then [] else [r]
  | _ => []

/-- The reports of a channel that wait for the first publisher. -/
def State.pending (s : State) (channel : Channel) : List Report :=
  (s.outbox.queue channel).drop (ofChannel channel (s.courier.inFlight .jobs)).length

/-- Whether the courier shows the oldest report of a channel, to both publishers in turn, of which
the second one sees it only while the transport is online. -/
structure State.Sound (s : State) : Prop where
  consumers : ∀ channel, s.outbox.consumers channel = [.jobs, .fleet]
  shown : ∀ channel r rest, s.courier = .showing channel r rest →
    (s.outbox.queue channel).head? = some r ∧
      (rest = [.jobs, .fleet] ∨ rest = [.fleet] ∧ s.transport.offline = false ∨ rest = [])

theorem sound_start (p : Pipeline) : (State.start p).Sound where
  consumers channel := by cases channel <;> rfl
  shown _ _ _ hshows := by cases hshows

section Steps

variable {env : Surroundings (StateM σ)} {p : Pipeline} {s s' : State} {log : List (Action σ)}
  {a : Action σ}

theorem send_jobs {r : Report} {t t' : Transport} (h : Publisher.jobs.send r t = (true, t')) :
    t.offline = false ∧ t' = { t with jobs := t.jobs ++ [.ofReport r] } := by
  simp only [Publisher.send] at h
  split at h
  · cases h
  · rename_i honline
    cases h
    exact ⟨Bool.eq_false_iff.2 honline, rfl⟩

/-- The reports that go to the fleet. -/
def finals (reports : List Report) : List Report := reports.filter fun r => r.status.isFinal

theorem finals_append (reports more : List Report) :
    finals (reports ++ more) = finals reports ++ finals more := List.filter_append ..

theorem send_fleet {r : Report} {t t' : Transport} (h : Publisher.fleet.send r t = (true, t')) :
    t' = { t with fleet := t.fleet ++ (finals [r]).map .ofReport } := by
  cases hfinal : r.status.isFinal with
  | false =>
    simp only [Publisher.send, hfinal, Bool.not_false, if_true] at h
    cases h
    simp [finals, hfinal]
  | true =>
    simp only [Publisher.send, hfinal, Bool.not_true, Bool.false_eq_true, if_false] at h
    split at h
    · cases h
    · cases h
      simp [finals, hfinal]

theorem send_refused {publisher : Publisher} {r : Report} {t t' : Transport}
    (h : publisher.send r t = (false, t')) : t.offline = true ∧ t' = t := by
  cases publisher with
  | jobs =>
    simp only [Publisher.send] at h
    split at h
    · rename_i hoffline
      cases h
      exact ⟨hoffline, rfl⟩
    · cases h
  | fleet =>
    simp only [Publisher.send] at h
    split at h
    · cases h
    · split at h
      · rename_i hoffline
        cases h
        exact ⟨hoffline, rfl⟩
      · cases h

theorem State.Sound.step (h : s.Sound) (hstep : Step env s a s') : s'.Sound := by
  obtain ⟨hconsumers, hshown⟩ := h
  cases hstep with
  | work hthere hdue t => exact ⟨hconsumers, hshown⟩
  | @tell r rest hdue =>
    refine ⟨hconsumers, fun channel shown rest' hshows => ?_⟩
    obtain ⟨hfront, hrest⟩ := hshown channel shown rest' hshows
    refine ⟨?_, hrest⟩
    rw [Outbox.queue_enqueue, List.head?_append, hfront]
    rfl
  | switch hbetween offline =>
    refine ⟨hconsumers, fun channel r rest hshows => ?_⟩
    obtain ⟨hfront, hboth | ⟨hfleet, -⟩ | hnone⟩ := hshown channel r rest hshows
    · exact ⟨hfront, .inl hboth⟩
    · rw [hshows, hfleet] at hbetween
      cases hbetween
    · exact ⟨hfront, .inr (.inr hnone)⟩
  | turnTo | rest | refuse | remove =>
    refine ⟨hconsumers, fun channel r rest hshows => ?_⟩
    cases hshows
  | look hlooks hsome =>
    refine ⟨hconsumers, fun channel r rest hshows => ?_⟩
    cases hshows
    exact ⟨hsome, .inl (hconsumers _)⟩
  | @accept channel r publisher rest hshows transport hsend =>
    refine ⟨hconsumers, fun channel' r' rest' hshows' => ?_⟩
    cases hshows'
    obtain ⟨hfront, hboth | ⟨hfleet, -⟩ | hnone⟩ := hshown channel r _ hshows
    · cases hboth
      obtain ⟨honline, rfl⟩ := send_jobs hsend
      exact ⟨hfront, .inr (.inl ⟨rfl, honline⟩)⟩
    · cases hfleet
      exact ⟨hfront, .inr (.inr rfl)⟩
    · cases hnone

theorem sound_run (h : Run env (.start p) log s) : s.Sound := by
  induction h with
  | start => exact sound_start p
  | step _ hstep ih => exact ih.step hstep

/-! ### Where the reports are -/

theorem reportsOf_snoc (env : Surroundings (StateM σ)) (p : Pipeline)
    (turns : List (Pipeline.Turn σ)) (t : Pipeline.Turn σ) :
    reportsOf env p (turns ++ [t]) =
      reportsOf env p turns ++ (t.outcome env (Pipeline.run env p turns)).reports := by
  rw [reportsOf, Pipeline.outcomes_append, List.flatMap_append]
  exact congrArg _ (List.append_nil _)

/-- Whether all that was processed could be counted, but for at most one deployment at the end, and
then the worker is gone. -/
def Counted (env : Surroundings (StateM σ)) (p : Pipeline) (turns : List (Pipeline.Turn σ))
    (s : State) : Prop :=
  Pipeline.HasRoom env p turns ∨
    ∃ before t, turns = before ++ [t] ∧ Pipeline.HasRoom env p before ∧
      (t.outcome env (Pipeline.run env p before)).isExhausted = true ∧ s.halted = true

/-- Whether the worker has done what comes of the processed deployments, with their reports told as
far as they are not due. -/
structure Worked (env : Surroundings (StateM σ)) (p : Pipeline) (log : List (Action σ))
    (s : State) : Prop where
  pipeline : s.pipeline = Pipeline.run env p (processed log)
  due : told log ++ s.due = reportsOf env p (processed log)
  counted : Counted env p (processed log) s

theorem Worked.keep (h : Worked env p log s) (hprocessed : processed [a] = [])
    (htold : told [a] = []) (hpipeline : s'.pipeline = s.pipeline) (hdue : s'.due = s.due)
    (hhalted : s'.halted = s.halted) : Worked env p (log ++ [a]) s' := by
  constructor
  · rw [processed_snoc, hprocessed, List.append_nil, hpipeline, h.pipeline]
  · rw [processed_snoc, hprocessed, told_snoc, htold, List.append_nil, List.append_nil, hdue, h.due]
  · rw [processed_snoc, hprocessed, List.append_nil, Counted, hhalted]
    exact h.counted

theorem Worked.step (h : Worked env p log s) (hstep : Step env s a s') :
    Worked env p (log ++ [a]) s' := by
  cases hstep with
  | work hthere hdue t =>
    have hnew : processed [.work t] = [t] := rfl
    have hnone : told [.work t] = [] := rfl
    have hbefore := h.due
    rw [hdue, List.append_nil] at hbefore
    have hroom : Pipeline.HasRoom env p (processed log) := by
      rcases h.counted with hroom | ⟨-, -, -, -, -, hhalted⟩
      · exact hroom
      · exact absurd (hthere.symm.trans hhalted) Bool.false_ne_true
    constructor
    · rw [processed_snoc, hnew, Pipeline.run_append, ← h.pipeline]
      rfl
    · rw [processed_snoc, hnew, reportsOf_snoc, told_snoc, hnone, List.append_nil, ← h.pipeline,
        hbefore]
    · rw [processed_snoc, hnew, Counted, Pipeline.hasRoom_append_iff, Pipeline.hasRoom_singleton,
        ← h.pipeline]
      cases hlast : (t.outcome env s.pipeline).isExhausted with
      | false => exact .inl ⟨hroom, rfl⟩
      | true =>
        refine .inr ⟨processed log, t, rfl, hroom, ?_, rfl⟩
        rw [← h.pipeline]
        exact hlast
  | @tell r rest hdue =>
    have hnone : processed ([.tell r] : List (Action σ)) = [] := rfl
    have hnew : told ([.tell r] : List (Action σ)) = [r] := rfl
    constructor
    · rw [processed_snoc, hnone, List.append_nil]
      exact h.pipeline
    · rw [processed_snoc, hnone, told_snoc, hnew, List.append_nil, List.append_assoc, ← h.due, hdue]
      rfl
    · rw [processed_snoc, hnone, List.append_nil]
      exact h.counted
  | _ => exact h.keep rfl rfl rfl rfl rfl

theorem worked_run (h : Run env (.start p) log s) : Worked env p log s := by
  induction h with
  | start => exact ⟨rfl, rfl, .inl (List.forall_mem_nil _)⟩
  | step _ hstep ih => exact ih.step hstep

/-- Whether, in order, the reports of each channel that were told have left the queue or wait. -/
def Queued (log : List (Action σ)) (s : State) : Prop :=
  ∀ channel,
    ofChannel channel (removed log) ++ s.outbox.queue channel = ofChannel channel (told log)

theorem Queued.keep (h : Queued log s) (hremoved : removed [a] = []) (htold : told [a] = [])
    (houtbox : s'.outbox = s.outbox) : Queued (log ++ [a]) s' := by
  intro channel
  rw [removed_snoc, hremoved, told_snoc, htold, List.append_nil, List.append_nil, houtbox, h]

theorem Queued.step (h : Queued log s) (hsound : s.Sound) (hstep : Step env s a s') :
    Queued (log ++ [a]) s' := by
  cases hstep with
  | @tell r rest hdue =>
    have hnone : removed ([.tell r] : List (Action σ)) = [] := rfl
    have hnew : told ([.tell r] : List (Action σ)) = [r] := rfl
    intro channel
    rw [removed_snoc, hnone, List.append_nil, told_snoc, hnew, ofChannel_append, ← h channel,
      Outbox.queue_enqueue, List.append_assoc, ofChannel_singleton]
  | @remove channel r hshown =>
    have hnew : removed ([.remove r] : List (Action σ)) = [r] := rfl
    have hnone : told ([.remove r] : List (Action σ)) = [] := rfl
    obtain ⟨hfront, -⟩ := hsound.shown channel r [] hshown
    have hchannel := Outbox.channel_of_front hfront
    intro other
    rw [removed_snoc, hnew, told_snoc, hnone, List.append_nil, ofChannel_append, ← h other,
      List.append_assoc]
    refine congrArg _ ?_
    rw [ofChannel_singleton, hchannel]
    by_cases hother : channel = other
    · subst hother
      rw [if_pos rfl, Outbox.queue_pop]
      exact List.cons_head?_tail hfront
    · rw [if_neg hother, Outbox.queue_pop_of_ne hother, List.nil_append]
  | _ => exact h.keep rfl rfl rfl

theorem queued_run (h : Run env (.start p) log s) : Queued log s := by
  induction h with
  | start =>
    intro channel
    cases channel <;> rfl
  | step hrun hstep ih => exact ih.step (sound_run hrun) hstep

/-- Whether each publisher has accepted the reports that were removed and up to one more, in order,
and the transport has what its publishers have accepted. -/
structure Shown (log : List (Action σ)) (s : State) : Prop where
  publishers : ∀ publisher,
    accepted publisher log = removed log ++ s.courier.inFlight publisher
  jobs : s.transport.jobs = (accepted .jobs log).map .ofReport
  fleet : s.transport.fleet = (finals (accepted .fleet log)).map .ofReport

theorem Shown.extend (h : Shown log s) (hremoved : removed [a] = [])
    (hinFlight : ∀ publisher,
      s'.courier.inFlight publisher = s.courier.inFlight publisher ++ accepted publisher [a])
    (hjobs : s'.transport.jobs = s.transport.jobs ++ (accepted .jobs [a]).map .ofReport)
    (hfleet : s'.transport.fleet =
      s.transport.fleet ++ (finals (accepted .fleet [a])).map .ofReport) :
    Shown (log ++ [a]) s' := by
  constructor
  · intro publisher
    rw [accepted_snoc, removed_snoc, hremoved, List.append_nil, hinFlight, h.publishers,
      List.append_assoc]
  · rw [accepted_snoc, List.map_append, hjobs, h.jobs]
  · rw [accepted_snoc, finals_append, List.map_append, hfleet, h.fleet]

theorem Shown.keep (h : Shown log s) (hremoved : removed [a] = [])
    (haccepted : ∀ publisher, accepted publisher [a] = [])
    (hinFlight : ∀ publisher, s'.courier.inFlight publisher = s.courier.inFlight publisher)
    (hjobs : s'.transport.jobs = s.transport.jobs)
    (hfleet : s'.transport.fleet = s.transport.fleet) : Shown (log ++ [a]) s' := by
  refine h.extend hremoved (fun publisher => ?_) ?_ ?_
  · rw [haccepted, List.append_nil, hinFlight]
  · rw [haccepted, hjobs]
    exact (List.append_nil _).symm
  · rw [haccepted, hfleet]
    exact (List.append_nil _).symm

theorem Shown.step (h : Shown log s) (hsound : s.Sound) (hstep : Step env s a s') :
    Shown (log ++ [a]) s' := by
  cases hstep with
  | work | tell | switch => exact h.keep rfl (fun _ => rfl) (fun _ => rfl) rfl rfl
  | turnTo hrests =>
    refine h.keep rfl (fun _ => rfl) (fun publisher => ?_) rfl rfl
    rw [hrests]
    rfl
  | rest hlooks =>
    refine h.keep rfl (fun _ => rfl) (fun publisher => ?_) rfl rfl
    rw [hlooks]
    rfl
  | @look channel r hlooks =>
    refine h.keep rfl (fun _ => rfl) (fun publisher => ?_) rfl rfl
    rw [hlooks, hsound.consumers]
    cases publisher <;> rfl
  | @refuse channel r publisher rest hshows transport hsend =>
    obtain ⟨hoffline, rfl⟩ := send_refused hsend
    refine h.keep rfl (fun _ => rfl) (fun publisher' => ?_) rfl rfl
    -- only the first publisher can refuse, so no publisher has accepted the report
    obtain ⟨-, hboth | ⟨-, honline⟩ | hnone⟩ := hsound.shown channel r _ hshows
    · rw [hshows, hboth]
      cases publisher' <;> rfl
    · rw [hoffline] at honline
      cases honline
    · cases hnone
  | @accept channel r publisher rest hshows transport hsend =>
    obtain ⟨-, hboth | ⟨hfleet, -⟩ | hnone⟩ := hsound.shown channel r _ hshows
    · cases hboth
      obtain ⟨-, rfl⟩ := send_jobs hsend
      refine h.extend rfl (fun publisher => ?_) rfl (List.append_nil _).symm
      rw [hshows]
      cases publisher <;> rfl
    · cases hfleet
      cases send_fleet hsend
      refine h.extend rfl (fun publisher => ?_) (List.append_nil _).symm rfl
      rw [hshows]
      cases publisher <;> rfl
    · cases hnone
  | @remove channel r hshown =>
    have hnew : removed ([.remove r] : List (Action σ)) = [r] := rfl
    have hnone : ∀ publisher, accepted publisher ([.remove r] : List (Action σ)) = [] :=
      fun _ => rfl
    have haccepted := h.publishers
    rw [hshown] at haccepted
    constructor
    · intro publisher
      rw [accepted_snoc, hnone, removed_snoc, hnew, haccepted]
      rfl
    · rw [accepted_snoc, hnone, List.append_nil, h.jobs]
    · rw [accepted_snoc, hnone, List.append_nil, h.fleet]

theorem shown_run (h : Run env (.start p) log s) : Shown log s := by
  induction h with
  | start => exact ⟨fun _ => rfl, rfl, rfl⟩
  | step hrun hstep ih => exact ih.step (sound_run hrun) hstep

theorem State.Sound.queue_eq (h : s.Sound) (channel : Channel) :
    ofChannel channel (s.courier.inFlight .jobs) ++ s.pending channel = s.outbox.queue channel := by
  rw [State.pending]
  cases hcourier : s.courier with
  | resting | looking => rfl
  | showing other r rest =>
    obtain ⟨hfront, -⟩ := h.shown other r rest hcourier
    rw [Courier.inFlight]
    by_cases hjobs : .jobs ∈ rest
    · rw [if_pos hjobs]
      rfl
    · rw [if_neg hjobs, ofChannel_singleton, Outbox.channel_of_front hfront]
      by_cases hother : other = channel
      · subst hother
        rw [if_pos rfl, List.length_singleton, List.drop_one]
        exact List.cons_head?_tail hfront
      · rw [if_neg hother]
        rfl

theorem State.Sound.inFlight_jobs (h : s.Sound) :
    s.courier.inFlight .jobs = s.courier.inFlight .fleet ++
      if s.courier.isBetween then s.courier.inFlight .jobs else [] := by
  cases hcourier : s.courier with
  | resting | looking => rfl
  | showing channel r rest =>
    obtain ⟨-, rfl | ⟨rfl, -⟩ | rfl⟩ := h.shown channel r rest hcourier <;> rfl

theorem pending_of_resting (h : s.courier = .resting) (channel : Channel) :
    s.pending channel = s.outbox.queue channel := by
  rw [State.pending, h]
  rfl

/-- What the first publisher has accepted, what waits for it and what is due are the reports of the
processed deployments, in every channel. -/
theorem accepted_append_pending (h : Run env (.start p) log s) (channel : Channel) :
    ofChannel channel (accepted .jobs log) ++ s.pending channel ++ ofChannel channel s.due =
      ofChannel channel (reportsOf env p (processed log)) := by
  rw [(shown_run h).publishers, ofChannel_append,
    List.append_assoc (ofChannel channel (removed log)), (sound_run h).queue_eq,
    queued_run h channel, ← ofChannel_append, (worked_run h).due]

end Steps

end Reporting
end Rollout
