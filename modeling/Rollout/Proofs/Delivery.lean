import Mathlib.Data.List.Forall2
import Rollout.Proofs.Delivery.Replay

/-!
# The order of a delivery

Whatever the consumers accept, refuse and queue, each entry of a log is justified by those before
it.  So the reports of a channel leave its queue in the order in which they came, each of them once
and only when all consumers have accepted it.
-/

namespace Rollout.Outbox

variable {κ σ : Type}

/-! ### Each entry follows from those before it -/

section Justified

variable (consume : κ → Report → StateM σ (Bool × List Report)) (first : Moment κ σ)

/-- Whether a report is shown as the oldest one of its channel, to a consumer of this channel. -/
def ShownInOrder (now : Moment κ σ) (channel : Channel) (consumer : κ) (r : Report)
    (answer : Bool × List Report) : Prop :=
  r.channel = channel ∧ (now.outbox.queue channel).head? = some r ∧
    consumer ∈ now.outbox.consumers channel ∧ ((consume consumer r).run now.world).1 = answer

/-- Whether an entry tells that a consumer has accepted a report. -/
def AcceptedBy (channel : Channel) (r : Report) (consumer : κ) (e : Entry κ) : Prop :=
  ∃ added, e = .shown channel consumer r true added

/-- Whether a delivery goes on to given consumers, all that the channel had when it began. -/
def Delivering (past : List (Entry κ)) (channel : Channel) (consumers : List κ) : Prop :=
  ∃ before during, past = before ++ .began channel :: during ∧
    (∀ e ∈ during, e.Delivers channel) ∧
    (replay consume before first).outbox.consumers channel = consumers

/-- Whether all consumers of the delivery that goes on have just accepted a report. -/
def AcceptedByAll (past : List (Entry κ)) (channel : Channel) (r : Report) : Prop :=
  ∃ before attempt consumers, past = before ++ attempt ∧
    Delivering consume first before channel consumers ∧
    List.Forall₂ (AcceptedBy channel r) consumers attempt

/-- Whether a consumer has just refused a report. -/
def JustRefused (past : List (Entry κ)) (channel : Channel) (r : Report) : Prop :=
  ∃ before consumer added, past = before ++ [.shown channel consumer r false added]

/-- Whether an entry may follow on a log. -/
def Justified (past : List (Entry κ)) : Entry κ → Prop
  | .shown channel consumer r accepted added =>
    ShownInOrder consume (replay consume past first) channel consumer r (accepted, added)
  | .left channel r =>
    ((replay consume past first).outbox.queue channel).head? = some r ∧
      AcceptedByAll consume first past channel r
  | .stopped channel =>
    (replay consume past first).outbox.queue channel = [] ∨
      ∃ r, ((replay consume past first).outbox.queue channel).head? = some r ∧
        JustRefused past channel r
  | _ => True

/-- Whether each entry of a log may follow on those before it. -/
def AllJustified (past log : List (Entry κ)) : Prop :=
  ∀ before e after, log = before ++ e :: after → Justified consume first (past ++ before) e

variable {consume first} {past log more : List (Entry κ)} {e : Entry κ}

theorem allJustified_nil : AllJustified consume first past [] := by
  intro before e after hsplit
  cases before <;> cases hsplit

theorem allJustified_cons_iff :
    AllJustified consume first past (e :: log) ↔
      Justified consume first past e ∧ AllJustified consume first (past ++ [e]) log := by
  constructor
  · intro h
    have he := h [] e log rfl
    rw [List.append_nil] at he
    refine ⟨he, fun before e' after hsplit => ?_⟩
    rw [← List.append_cons]
    exact h (e :: before) e' after (congrArg (List.cons e) hsplit)
  · rintro ⟨he, hlog⟩ before e' after hsplit
    cases before with
    | nil =>
      cases hsplit
      rw [List.append_nil]
      exact he
    | cons e'' before =>
      cases hsplit
      rw [List.append_cons]
      exact hlog before e' after rfl

theorem allJustified_append (hlog : AllJustified consume first past log)
    (hmore : AllJustified consume first (past ++ log) more) :
    AllJustified consume first past (log ++ more) := by
  induction log generalizing past with
  | nil =>
    rw [List.append_nil] at hmore
    exact hmore
  | cons e log ih =>
    obtain ⟨he, hrest⟩ := allJustified_cons_iff.1 hlog
    rw [List.append_cons] at hmore
    exact allJustified_cons_iff.2 ⟨he, ih hrest hmore⟩

end Justified

/-! ### A report is shown -/

section Showing

variable {consume : κ → Report → StateM σ (Bool × List Report)} {first now : Moment κ σ}
variable {channel : Channel} {consumers : List κ} {r : Report} {past : List (Entry κ)}

theorem channel_of_front {outbox : Outbox κ} (h : (outbox.queue channel).head? = some r) :
    r.channel = channel := by
  have hmem : r ∈ outbox.queue channel := List.mem_of_head? h
  exact of_decide_eq_true (List.mem_filter.1 hmem).2

/-- The oldest report stays where it is while consumers queue further ones. -/
theorem front_enqueueAll {outbox : Outbox κ} (h : (outbox.queue channel).head? = some r)
    (added : List Report) : ((outbox.enqueueAll added).queue channel).head? = some r := by
  rw [queue_enqueueAll, List.head?_append, h]
  rfl

variable (now) in
theorem front_showTo (h : (now.outbox.queue channel).head? = some r) {all : Bool}
    {outbox : Outbox κ} {w : σ}
    (hshown : (showTo consume r consumers now.outbox).run now.world = ((all, outbox), w)) :
    (outbox.queue channel).head? = some r ∧
      outbox.consumers channel = now.outbox.consumers channel := by
  induction consumers generalizing now with
  | nil =>
    cases hshown
    exact ⟨h, rfl⟩
  | cons consumer rest ih =>
    obtain ⟨accepted, added, w', hanswer⟩ := exists_run (consume consumer r) now.world
    have hfront := front_enqueueAll h added
    rw [run_showTo_cons hanswer] at hshown
    cases accepted with
    | true => exact ih ⟨now.outbox.enqueueAll added, w'⟩ hfront hshown
    | false =>
      cases hshown
      exact ⟨hfront, rfl⟩

variable (now) in
theorem acceptedBy_showLog {outbox : Outbox κ} {w : σ}
    (hshown : (showTo consume r consumers now.outbox).run now.world = ((true, outbox), w)) :
    List.Forall₂ (AcceptedBy channel r) consumers (showLog consume channel r consumers now) := by
  induction consumers generalizing now with
  | nil => exact .nil
  | cons consumer rest ih =>
    obtain ⟨accepted, added, w', hanswer⟩ := exists_run (consume consumer r) now.world
    rw [run_showTo_cons hanswer] at hshown
    rw [showLog_cons hanswer]
    cases accepted with
    | true => exact .cons ⟨added, rfl⟩ (ih ⟨now.outbox.enqueueAll added, w'⟩ hshown)
    | false => cases hshown

variable (now) in
theorem justRefused_showLog {outbox : Outbox κ} {w : σ}
    (hshown : (showTo consume r consumers now.outbox).run now.world = ((false, outbox), w)) :
    JustRefused (showLog consume channel r consumers now) channel r := by
  induction consumers generalizing now with
  | nil => cases hshown
  | cons consumer rest ih =>
    obtain ⟨accepted, added, w', hanswer⟩ := exists_run (consume consumer r) now.world
    rw [run_showTo_cons hanswer] at hshown
    rw [showLog_cons hanswer]
    cases accepted with
    | true =>
      obtain ⟨before, last, more, hlog⟩ := ih ⟨now.outbox.enqueueAll added, w'⟩ hshown
      exact ⟨_ :: before, last, more, congrArg (List.cons _) hlog⟩
    | false => exact ⟨[], consumer, added, rfl⟩

theorem allJustified_showLog (hnow : replay consume past first = now)
    (hfront : (now.outbox.queue channel).head? = some r)
    (hconsumers : ∀ consumer ∈ consumers, consumer ∈ now.outbox.consumers channel) :
    AllJustified consume first past (showLog consume channel r consumers now) := by
  -- Along the consumers; what one of them queues does not take the report's place at the front.
  induction consumers generalizing past now with
  | nil => exact allJustified_nil
  | cons consumer rest ih =>
    obtain ⟨hconsumer, hrest⟩ := List.forall_mem_cons.1 hconsumers
    obtain ⟨accepted, added, w, hanswer⟩ := exists_run (consume consumer r) now.world
    rw [showLog_cons hanswer]
    refine allJustified_cons_iff.2 ⟨?_, ?_⟩
    · have hshown := congrArg Prod.fst hanswer
      rw [← hnow] at hfront hconsumer hshown
      exact ⟨channel_of_front hfront, hfront, hconsumer, hshown⟩
    · cases accepted with
      | true =>
        refine ih ?_ (front_enqueueAll hfront added) hrest
        rw [replay_append, hnow, replay_cons, act_shown hanswer]
        rfl
      | false => exact allJustified_nil

end Showing

/-! ### Reports are delivered -/

section Delivering

variable {consume : κ → Report → StateM σ (Bool × List Report)} {first now : Moment κ σ}
variable {channel : Channel} {limit : Nat} {past : List (Entry κ)}

theorem Delivering.append {consumers : List κ} {log : List (Entry κ)}
    (h : Delivering consume first past channel consumers) (hlog : ∀ e ∈ log, e.Delivers channel) :
    Delivering consume first (past ++ log) channel consumers := by
  obtain ⟨before, during, hpast, hduring, hconsumers⟩ := h
  refine ⟨before, during ++ log, ?_, List.forall_mem_append.2 ⟨hduring, hlog⟩, hconsumers⟩
  rw [hpast, List.append_assoc, List.cons_append]

theorem allJustified_deliverLog {consumers : List κ} (hnow : replay consume past first = now)
    (hconsumers : now.outbox.consumers channel = consumers)
    (hpast : Delivering consume first past channel consumers) :
    AllJustified consume first past (deliverLog consume channel consumers limit now) := by
  -- Along the limit; the delivery goes on to the consumers with which it began, since nobody is
  -- registered meanwhile.
  induction limit generalizing past now with
  | zero => exact allJustified_nil
  | succ limit ih =>
    cases hfront : (now.outbox.queue channel).head? with
    | none =>
      rw [deliverLog_none hfront]
      refine allJustified_cons_iff.2 ⟨.inl ?_, allJustified_nil⟩
      rw [hnow]
      exact List.head?_eq_none_iff.1 hfront
    | some r =>
      obtain ⟨all, outbox, w, hshown⟩ :=
        exists_run (showTo consume r consumers now.outbox) now.world
      obtain ⟨hfront', hconsumers'⟩ := front_showTo now hfront hshown
      have hthen : replay consume (past ++ showLog consume channel r consumers now) first =
          ⟨outbox, w⟩ := by
        rw [replay_append, hnow, replay_showLog, hshown]
        rfl
      rw [deliverLog_succ hfront hshown]
      refine allJustified_append (allJustified_showLog hnow hfront ?_) ?_
      · intro consumer hmem
        rw [hconsumers]
        exact hmem
      cases all with
      | true =>
        have haccepted : AcceptedByAll consume first _ channel r :=
          ⟨past, _, consumers, rfl, hpast, acceptedBy_showLog now hshown⟩
        refine allJustified_cons_iff.2 ⟨⟨?_, haccepted⟩, ?_⟩
        · rw [hthen]
          exact hfront'
        · refine @ih ⟨outbox.pop channel, w⟩ _ ?_ (hconsumers'.trans hconsumers) ?_
          · rw [replay_append, hthen]
            rfl
          · exact (hpast.append (delivers_showLog now)).append (List.forall_mem_singleton.2 rfl)
      | false =>
        refine allJustified_cons_iff.2 ⟨.inr ⟨r, ?_, ?_⟩, allJustified_nil⟩
        · rw [hthen]
          exact hfront'
        · obtain ⟨before, consumer, added, hlog⟩ := justRefused_showLog now hshown
          refine ⟨past ++ before, consumer, added, ?_⟩
          rw [hlog, List.append_assoc]

theorem allJustified_publishLog (hnow : replay consume past first = now) :
    AllJustified consume first past (publishLog consume limit channel now) := by
  refine allJustified_cons_iff.2 ⟨trivial, allJustified_deliverLog ?_ rfl ?_⟩
  · rw [replay_append, hnow]
    rfl
  · exact ⟨past, [], rfl, List.forall_mem_nil _, by rw [hnow]⟩

theorem allJustified_callLog (hnow : replay consume past first = now) (call : Call κ) :
    AllJustified consume first past (callLog consume limit now call) := by
  cases call with
  | register | enqueue => exact allJustified_cons_iff.2 ⟨trivial, allJustified_nil⟩
  | report r =>
    refine allJustified_cons_iff.2 ⟨trivial, allJustified_publishLog ?_⟩
    rw [replay_append, hnow]
    rfl
  | publish channel => exact allJustified_publishLog hnow

theorem allJustified_logOf (hnow : replay consume past first = now) (calls : List (Call κ)) :
    AllJustified consume first past (logOf consume limit calls now) := by
  induction calls generalizing past now with
  | nil => exact allJustified_nil
  | cons call calls ih =>
    refine allJustified_append (allJustified_callLog hnow call) (ih ?_)
    rw [replay_append, hnow, replay_callLog]

end Delivering

/-! ### Nothing is lost -/

section Conserved

variable {consume : κ → Report → StateM σ (Bool × List Report)} {first : Moment κ σ}
variable {channel : Channel} {past log : List (Entry κ)} {e : Entry κ}

/-- Whether the reports of a channel that have left and those that still wait are, in this order,
all that were queued. -/
def Conserved (consume : κ → Report → StateM σ (Bool × List Report)) (first : Moment κ σ)
    (channel : Channel) (past : List (Entry κ)) : Prop :=
  first.outbox.queue channel ++ queuedFor channel past =
    leftFor channel past ++ (replay consume past first).outbox.queue channel

theorem conserved_snoc (h : Conserved consume first channel past)
    (he : Justified consume first past e) : Conserved consume first channel (past ++ [e]) := by
  unfold Conserved at h ⊢
  rw [queuedFor_append, leftFor_append, replay_append, ← List.append_assoc, h, List.append_assoc,
    List.append_assoc]
  refine congrArg (leftFor channel past ++ ·) ?_
  cases e with
  | register other name consumer =>
    exact (List.append_nil _).trans (queue_register other name consumer channel _).symm
  | enqueue r =>
    show _ = (Outbox.enqueue r _).queue channel
    rw [queue_enqueue, queuedFor, List.flatMap_singleton]
  | began other => exact List.append_nil _
  | shown other consumer r accepted added =>
    show _ = (Outbox.enqueueAll added _).queue channel
    rw [queue_enqueueAll, queuedFor, List.flatMap_singleton]
  | left other r =>
    show _ = leftFor channel [.left other r] ++ (Outbox.pop other _).queue channel
    rw [leftFor_left]
    refine (List.append_nil _).trans ?_
    by_cases hother : other = channel
    -- The report that leaves is the oldest one, by what justifies the entry.
    · subst hother
      obtain ⟨rest, hqueue⟩ := List.head?_eq_some_iff.1 he.1
      rw [queue_pop, hqueue, if_pos rfl]
      rfl
    · rw [queue_pop_of_ne hother, if_neg hother, List.nil_append]
  | stopped other => exact List.append_nil _

theorem conserved_of_allJustified (h : Conserved consume first channel past)
    (hlog : AllJustified consume first past log) :
    Conserved consume first channel (past ++ log) := by
  induction log generalizing past with
  | nil =>
    rw [List.append_nil]
    exact h
  | cons e log ih =>
    obtain ⟨he, hrest⟩ := allJustified_cons_iff.1 hlog
    rw [List.append_cons]
    exact ih (conserved_snoc h he) hrest

end Conserved

/-! ### All together -/

/-- In every run of calls at an empty outbox, whatever its consumers answer and queue:

* The log accounts for the outbox and for the world in the end.
* For each channel, the reports that have left and those that still wait are all reports that were
  queued, in this order, and the answers of the calls add up to the number of those that have left.
  The former holds at each moment of the run.
* A report is shown while it is the oldest one of its channel, and only to consumers of its channel.
* A report leaves when all consumers that the channel had when the delivery began have just accepted
  it.
* A delivery stops when no report of the channel is left, or when the oldest one was just refused.
* Each delivery stops, and as it would under a higher limit, unless the limit is reached.
* Publishing channels one after another, as an agent does, goes on with the run by a call for each
  of them, whose answers it adds up. -/
theorem reports_leave_in_order (consume : κ → Report → StateM σ (Bool × List Report)) (limit : Nat)
    (calls : List (Call κ)) (w : σ) :
    let result := (performAll consume limit calls .empty).run w
    let first : Moment κ σ := ⟨.empty, w⟩
    let log := logOf consume limit calls first
    replay consume log first = .after result ∧
    (∀ channel,
      queuedFor channel log = leftFor channel log ++ result.1.2.queue channel ∧
      delivered channel calls result.1.1 = (leftFor channel log).length ∧
      ∀ before after, log = before ++ after →
        queuedFor channel before =
          leftFor channel before ++ (replay consume before first).outbox.queue channel) ∧
    (∀ before after channel consumer r accepted added,
      log = before ++ .shown channel consumer r accepted added :: after →
        ShownInOrder consume (replay consume before first) channel consumer r (accepted, added)) ∧
    (∀ before after channel r, log = before ++ .left channel r :: after →
      AcceptedByAll consume first before channel r) ∧
    (∀ before after channel, log = before ++ .stopped channel :: after →
      (replay consume before first).outbox.queue channel = [] ∨
        ∃ r, ((replay consume before first).outbox.queue channel).head? = some r ∧
          JustRefused before channel r) ∧
    ((∀ count ∈ result.1.1, count < limit) →
      AllStop log ∧ ∀ more, (performAll consume (limit + more) calls .empty).run w = result ∧
        logOf consume (limit + more) calls first = log) ∧
    ∀ channels,
      let published := (publishAll consume limit channels result.1.2).run result.2
      ∃ counts, counts.foldr (· + ·) 0 = published.1.1 ∧
        (performAll consume limit (calls ++ channels.map .publish) .empty).run w =
          ((result.1.1 ++ counts, published.1.2), published.2) := by
  intro result first log
  have hreplay : replay consume log first = .after result := replay_logOf first calls
  have hjustified : AllJustified consume first [] log := allJustified_logOf rfl calls
  have hconserved : ∀ channel before after, log = before ++ after →
      queuedFor channel before =
        leftFor channel before ++ (replay consume before first).outbox.queue channel := by
    intro channel before after hsplit
    have hbefore : AllJustified consume first [] before := by
      intro earlier e later hlog
      refine hjustified earlier e (later ++ after) ?_
      rw [hsplit, hlog, List.append_assoc, List.cons_append]
    have hstart : Conserved consume first channel [] := rfl
    exact conserved_of_allJustified hstart hbefore
  refine ⟨hreplay, fun channel => ⟨?_, ?_, hconserved channel⟩, ?_, ?_, ?_,
    fun hcounts => ⟨?_, ?_⟩, fun channels => ?_⟩
  · have hlog := hconserved channel log [] (List.append_nil log).symm
    rw [hreplay] at hlog
    exact hlog
  · exact delivered_eq_length_leftFor calls first
  · intro before after channel consumer r accepted added hsplit
    exact hjustified before _ after hsplit
  · intro before after channel r hsplit
    exact (hjustified before _ after hsplit).2
  · intro before after channel hsplit
    exact hjustified before _ after hsplit
  · exact allStop_logOf calls first hcounts
  · exact fun more => performAll_add_of_lt calls more first hcounts
  · intro published
    obtain ⟨counts, hcounts, hpublished⟩ :=
      run_publishAll consume limit channels result.1.2 result.2
    have hafter := congrArg (fun more => ((result.1.1 ++ more.1.1, more.1.2), more.2)) hpublished
    exact ⟨counts, hcounts, (run_performAll_append calls _ .empty w).trans hafter⟩

/-- A report that is refused once, and that makes its consumer queue another one. -/
theorem refused_report_leaves_first :
    let r := Report.ofRecord .epoch (.queued "d1" .jobs .epoch)
    let r' := Report.ofRecord .epoch (.queued "d2" .jobs .epoch)
    let consume : Unit → Report → StateM Nat (Bool × List Report) := fun _ shown refusals =>
      if refusals = 0 then ((true, if shown = r then [r'] else []), 0)
      else ((false, []), refusals - 1)
    let calls : List (Call Unit) := [.register .jobs "echo" (), .report r, .publish .jobs]
    let log := logOf consume 3 calls ⟨.empty, 1⟩
    ((performAll consume 3 calls .empty).run 1).1.1 = [0, 0, 2] ∧ leftFor .jobs log = [r, r'] ∧
      AllStop log ∧ queuedFor .jobs log = [r, r'] := by
  intro r r' consume calls log
  have hcounts : ((performAll consume 3 calls .empty).run 1).1.1 = [0, 0, 2] := by decide
  have hleft : leftFor .jobs log = [r, r'] := by decide
  have hnone : ((performAll consume 3 calls .empty).run 1).1.2.queue .jobs = [] := by decide
  obtain ⟨-, hqueues, -, -, -, hstops, -⟩ := reports_leave_in_order consume 3 calls 1
  refine ⟨hcounts, hleft, (hstops ?_).1, ?_⟩
  · rw [hcounts]
    decide
  · have hqueued := (hqueues .jobs).1
    rw [hnone, List.append_nil] at hqueued
    exact hqueued.trans hleft

end Rollout.Outbox
