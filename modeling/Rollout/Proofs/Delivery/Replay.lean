import Rollout.Agent

/-!
# The log of a delivery

Consumers are registered, reports are queued and the queues are published in any order.  `logOf` is
the log of what happens then.  It is enough to get the outbox and the world back (`replay_logOf`),
it shows as many reports leaving as the calls have counted, and every delivery that begins in it
comes to its end there, unless it reaches its limit.
-/

namespace Rollout.Outbox

variable {κ σ : Type}

/-! ### Calls -/

inductive Call (κ : Type) where
  | register (channel : Channel) (name : String) (consumer : κ)
  | enqueue (report : Report)
  | report (report : Report)
  | publish (channel : Channel)

/-- The channel whose reports are delivered. -/
def Call.channel? : Call κ → Option Channel
  | register _ _ _ | enqueue _ => none
  | report r => some r.channel
  | publish channel => some channel

section Run

variable {m : Type → Type} [Monad m]
variable (consume : κ → Report → m (Bool × List Report)) (limit : Nat)

/-- Does what is asked for; says how many reports were delivered. -/
def perform : Call κ → Outbox κ → m (Nat × Outbox κ)
  | .register channel name consumer, outbox => pure (0, (outbox.register channel name consumer).2)
  | .enqueue r, outbox => pure (0, outbox.enqueue r)
  | .report r, outbox => outbox.report consume limit r
  | .publish channel, outbox => outbox.publish consume limit channel

def performAll : List (Call κ) → Outbox κ → m (List Nat × Outbox κ)
  | [], outbox => pure ([], outbox)
  | call :: calls, outbox => do
    let (count, outbox) ← perform consume limit call outbox
    let (counts, outbox) ← performAll calls outbox
    return (count :: counts, outbox)

end Run

/-- How many reports of a channel were delivered by calls with the given answers. -/
def delivered (channel : Channel) : List (Call κ) → List Nat → Nat
  | call :: calls, count :: counts =>
    (if call.channel? = some channel then count else 0) + delivered channel calls counts
  | _, _ => 0

/-! ### What happens -/

inductive Entry (κ : Type) where
  | register (channel : Channel) (name : String) (consumer : κ)
  | enqueue (report : Report)
  /-- The delivery of the reports of a channel begins. -/
  | began (channel : Channel)
  /-- A report is shown to a consumer of a channel, which queues further ones. -/
  | shown (channel : Channel) (consumer : κ) (report : Report) (accepted : Bool)
    (added : List Report)
  | left (channel : Channel) (report : Report)
  | stopped (channel : Channel)

/-- Whether an entry is one of those that a delivery of a channel adds between its beginning and its
end. -/
def Entry.Delivers (channel : Channel) : Entry κ → Prop
  | shown other _ _ _ _ | left other _ => other = channel
  | _ => False

/-- An outbox and the world around it. -/
structure Moment (κ σ : Type) where
  outbox : Outbox κ
  world : σ

/-- The moment after an action at an outbox. -/
def Moment.after {α : Type} (result : (α × Outbox κ) × σ) : Moment κ σ := ⟨result.1.2, result.2⟩

section Log

variable (consume : κ → Report → StateM σ (Bool × List Report)) (limit : Nat)

def Entry.act (now : Moment κ σ) : Entry κ → Moment κ σ
  | register channel name consumer =>
    { now with outbox := (now.outbox.register channel name consumer).2 }
  | enqueue r => { now with outbox := now.outbox.enqueue r }
  | shown _ consumer r _ added =>
    ⟨now.outbox.enqueueAll added, ((consume consumer r).run now.world).2⟩
  | left channel _ => { now with outbox := now.outbox.pop channel }
  | began _ | stopped _ => now

/-- The moment after all that stands in a log. -/
def replay (log : List (Entry κ)) (first : Moment κ σ) : Moment κ σ :=
  log.foldl (Entry.act consume) first

def showLog (channel : Channel) (r : Report) : List κ → Moment κ σ → List (Entry κ)
  | [], _ => []
  | consumer :: rest, now =>
    let answer := ((consume consumer r).run now.world).1
    let entry := Entry.shown channel consumer r answer.1 answer.2
    entry :: if answer.1 then showLog channel r rest (entry.act consume now) else []

def deliverLog (channel : Channel) (consumers : List κ) : Nat → Moment κ σ → List (Entry κ)
  | 0, _ => []
  | limit + 1, now =>
    match (now.outbox.queue channel).head? with
    | none => [.stopped channel]
    | some r =>
      let result := (showTo consume r consumers now.outbox).run now.world
      let popped := Entry.act consume (.after result) (.left channel r)
      showLog consume channel r consumers now ++
        if result.1.1 then .left channel r :: deliverLog channel consumers limit popped
        else [.stopped channel]

def publishLog (channel : Channel) (now : Moment κ σ) : List (Entry κ) :=
  .began channel :: deliverLog consume channel (now.outbox.consumers channel) limit now

def callLog (now : Moment κ σ) : Call κ → List (Entry κ)
  | .register channel name consumer => [.register channel name consumer]
  | .enqueue r => [.enqueue r]
  | .report r =>
    .enqueue r :: publishLog consume limit r.channel ⟨now.outbox.enqueue r, now.world⟩
  | .publish channel => publishLog consume limit channel now

def logOf : List (Call κ) → Moment κ σ → List (Entry κ)
  | [], _ => []
  | call :: calls, now =>
    callLog consume limit now call ++
      logOf calls (.after ((perform consume limit call now.outbox).run now.world))

end Log

/-- The reports of a channel that were queued, in the order in which this was done. -/
def queuedFor (channel : Channel) (log : List (Entry κ)) : List Report :=
  log.flatMap fun
    | .enqueue r => if r.channel = channel then [r] else []
    | .shown _ _ _ _ added => added.filter fun r => r.channel = channel
    | _ => []

def leftFor (channel : Channel) (log : List (Entry κ)) : List Report :=
  log.flatMap fun
    | .left other r => if other = channel then [r] else []
    | _ => []

section Views

variable (channel : Channel) (log more : List (Entry κ)) (e : Entry κ)

theorem queuedFor_append :
    queuedFor channel (log ++ more) = queuedFor channel log ++ queuedFor channel more :=
  List.flatMap_append

theorem leftFor_append :
    leftFor channel (log ++ more) = leftFor channel log ++ leftFor channel more :=
  List.flatMap_append

theorem leftFor_cons : leftFor channel (e :: log) = leftFor channel [e] ++ leftFor channel log :=
  leftFor_append channel [e] log

theorem leftFor_left (other : Channel) (r : Report) :
    leftFor channel [(.left other r : Entry κ)] = if other = channel then [r] else [] :=
  List.append_nil _

end Views

/-! ### The log accounts for the run -/

section Replay

variable {consume : κ → Report → StateM σ (Bool × List Report)} {limit : Nat} {channel : Channel}
variable {consumers : List κ} {r : Report} {now : Moment κ σ}

theorem replay_append (log more : List (Entry κ)) (first : Moment κ σ) :
    replay consume (log ++ more) first = replay consume more (replay consume log first) :=
  List.foldl_append

theorem replay_cons (e : Entry κ) (log : List (Entry κ)) (first : Moment κ σ) :
    replay consume (e :: log) first = replay consume log (e.act consume first) :=
  rfl

theorem exists_run {α β : Type} (action : StateM σ (α × β)) (w : σ) :
    ∃ a b w', action.run w = ((a, b), w') :=
  ⟨_, _, _, rfl⟩

theorem run_showTo_cons {consumer : κ} {rest : List κ} {accepted : Bool} {added : List Report}
    {w : σ} (hanswer : (consume consumer r).run now.world = ((accepted, added), w)) :
    (showTo consume r (consumer :: rest) now.outbox).run now.world =
      if accepted then (showTo consume r rest (now.outbox.enqueueAll added)).run w
      else ((false, now.outbox.enqueueAll added), w) := by
  have hbind : (showTo consume r (consumer :: rest) now.outbox).run now.world =
      StateT.run (if accepted then showTo consume r rest (now.outbox.enqueueAll added)
        else return (false, now.outbox.enqueueAll added)) w := by
    rw [showTo, StateT.run_bind, hanswer]
    rfl
  rw [hbind]
  split <;> rfl

theorem showLog_cons {consumer : κ} {rest : List κ} {accepted : Bool} {added : List Report}
    {w : σ} (hanswer : (consume consumer r).run now.world = ((accepted, added), w)) :
    showLog consume channel r (consumer :: rest) now =
      .shown channel consumer r accepted added ::
        if accepted then showLog consume channel r rest ⟨now.outbox.enqueueAll added, w⟩
        else [] := by
  rw [showLog, Entry.act, hanswer]

theorem act_shown {consumer : κ} {accepted : Bool} {added : List Report} {w : σ}
    (hanswer : (consume consumer r).run now.world = ((accepted, added), w)) :
    Entry.act consume now (.shown channel consumer r accepted added) =
      ⟨now.outbox.enqueueAll added, w⟩ := by
  rw [Entry.act, hanswer]

variable (now) in
theorem replay_showLog :
    replay consume (showLog consume channel r consumers now) now =
      .after ((showTo consume r consumers now.outbox).run now.world) := by
  induction consumers generalizing now with
  | nil => rfl
  | cons consumer rest ih =>
    obtain ⟨accepted, added, w, hanswer⟩ := exists_run (consume consumer r) now.world
    rw [showLog_cons hanswer, run_showTo_cons hanswer, replay_cons, act_shown hanswer]
    cases accepted with
    | true => exact ih ⟨now.outbox.enqueueAll added, w⟩
    | false => rfl

theorem run_deliver_succ (hfront : (now.outbox.queue channel).head? = some r) {all : Bool}
    {outbox : Outbox κ} {w : σ}
    (hshown : (showTo consume r consumers now.outbox).run now.world = ((all, outbox), w)) :
    (deliver consume channel consumers (limit + 1) now.outbox).run now.world =
      if all then
        let rest := (deliver consume channel consumers limit (outbox.pop channel)).run w
        ((rest.1.1 + 1, rest.1.2), rest.2)
      else ((0, outbox), w) := by
  have hbind : (deliver consume channel consumers (limit + 1) now.outbox).run now.world =
      StateT.run (if all then do
          let (count, outbox) ← deliver consume channel consumers limit (outbox.pop channel)
          return (count + 1, outbox)
        else return (0, outbox)) w := by
    rw [deliver, hfront, StateT.run_bind, hshown]
    rfl
  rw [hbind]
  split <;> rfl

theorem deliverLog_succ (hfront : (now.outbox.queue channel).head? = some r) {all : Bool}
    {outbox : Outbox κ} {w : σ}
    (hshown : (showTo consume r consumers now.outbox).run now.world = ((all, outbox), w)) :
    deliverLog consume channel consumers (limit + 1) now =
      showLog consume channel r consumers now ++
        if all then .left channel r ::
          deliverLog consume channel consumers limit ⟨outbox.pop channel, w⟩
        else [.stopped channel] := by
  rw [deliverLog, hfront]
  dsimp only
  rw [hshown]
  rfl

theorem deliverLog_none (hfront : (now.outbox.queue channel).head? = none) :
    deliverLog consume channel consumers (limit + 1) now = [.stopped channel] := by
  rw [deliverLog, hfront]

theorem run_deliver_none (hfront : (now.outbox.queue channel).head? = none) :
    (deliver consume channel consumers limit now.outbox).run now.world =
      ((0, now.outbox), now.world) := by
  cases limit with
  | zero => rfl
  | succ limit =>
    rw [deliver, hfront]
    rfl

variable (now) in
theorem replay_deliverLog :
    replay consume (deliverLog consume channel consumers limit now) now =
      .after ((deliver consume channel consumers limit now.outbox).run now.world) := by
  induction limit generalizing now with
  | zero => rfl
  | succ limit ih =>
    cases hfront : (now.outbox.queue channel).head? with
    | none =>
      rw [deliverLog_none hfront, run_deliver_none hfront]
      rfl
    | some r =>
      obtain ⟨all, outbox, w, hshown⟩ :=
        exists_run (showTo consume r consumers now.outbox) now.world
      rw [deliverLog_succ hfront hshown, run_deliver_succ hfront hshown, replay_append,
        replay_showLog, hshown]
      cases all with
      | true => exact ih ⟨outbox.pop channel, w⟩
      | false => rfl

variable (now) in
theorem replay_callLog (call : Call κ) :
    replay consume (callLog consume limit now call) now =
      .after ((perform consume limit call now.outbox).run now.world) := by
  cases call with
  | register | enqueue => rfl
  | report r => exact replay_deliverLog ⟨now.outbox.enqueue r, now.world⟩
  | publish channel => exact replay_deliverLog now

theorem run_performAll_cons (call : Call κ) (calls : List (Call κ)) {outbox : Outbox κ} {w : σ} :
    (performAll consume limit (call :: calls) outbox).run w =
      let first := (perform consume limit call outbox).run w
      let rest := (performAll consume limit calls first.1.2).run first.2
      ((first.1.1 :: rest.1.1, rest.1.2), rest.2) :=
  rfl

theorem run_performAll_append (calls more : List (Call κ)) (outbox : Outbox κ) (w : σ) :
    (performAll consume limit (calls ++ more) outbox).run w =
      let first := (performAll consume limit calls outbox).run w
      let rest := (performAll consume limit more first.1.2).run first.2
      ((first.1.1 ++ rest.1.1, rest.1.2), rest.2) := by
  induction calls generalizing outbox w with
  | nil => rfl
  | cons call calls ih =>
    rw [List.cons_append, run_performAll_cons, run_performAll_cons]
    dsimp only
    rw [ih]
    rfl

variable (consume limit) in
/-- What an agent does to deliver its reports is a run of calls. -/
theorem run_publishAll (channels : List Channel) (outbox : Outbox κ) (w : σ) :
    let published := (publishAll consume limit channels outbox).run w
    ∃ counts, counts.foldr (· + ·) 0 = published.1.1 ∧
      (performAll consume limit (channels.map .publish) outbox).run w =
        ((counts, published.1.2), published.2) := by
  induction channels generalizing outbox w with
  | nil => exact ⟨[], rfl, rfl⟩
  | cons channel channels ih =>
    let first := (publish consume limit channel outbox).run w
    obtain ⟨counts, hcounts, hothers⟩ := ih first.1.2 first.2
    have hbind : (publishAll consume limit (channel :: channels) outbox).run w =
        let others := (publishAll consume limit channels first.1.2).run first.2
        ((first.1.1 + others.1.1, others.1.2), others.2) := rfl
    refine ⟨first.1.1 :: counts, ?_, ?_⟩
    · rw [List.foldr_cons, hcounts, hbind]
    · rw [hbind, List.map_cons, run_performAll_cons]
      dsimp only [perform]
      rw [hothers]

variable (now) in
theorem replay_logOf (calls : List (Call κ)) :
    replay consume (logOf consume limit calls now) now =
      .after ((performAll consume limit calls now.outbox).run now.world) := by
  induction calls generalizing now with
  | nil => rfl
  | cons call calls ih =>
    rw [logOf, replay_append, replay_callLog]
    exact ih _

variable (now) in
theorem delivers_showLog : ∀ e ∈ showLog consume channel r consumers now, e.Delivers channel := by
  induction consumers generalizing now with
  | nil => exact List.forall_mem_nil _
  | cons consumer rest ih =>
    rw [showLog_cons rfl]
    refine List.forall_mem_cons.2 ⟨rfl, ?_⟩
    split
    · exact ih _
    · exact List.forall_mem_nil _

end Replay

/-! ### What has left is counted -/

section Counted

variable {consume : κ → Report → StateM σ (Bool × List Report)}
variable {channel : Channel} {limit : Nat}

theorem leftFor_showLog (other : Channel) (r : Report) (consumers : List κ) (now : Moment κ σ) :
    leftFor channel (showLog consume other r consumers now) = [] := by
  induction consumers generalizing now with
  | nil => rfl
  | cons consumer rest ih =>
    rw [showLog_cons rfl, leftFor_cons]
    split
    · exact ih _
    · rfl

theorem length_leftFor_deliverLog (other : Channel) (consumers : List κ) (now : Moment κ σ) :
    (leftFor channel (deliverLog consume other consumers limit now)).length =
      if other = channel then
        ((deliver consume other consumers limit now.outbox).run now.world).1.1
      else 0 := by
  induction limit generalizing now with
  | zero => exact (ite_self 0).symm
  | succ limit ih =>
    cases hfront : (now.outbox.queue other).head? with
    | none =>
      rw [deliverLog_none hfront, run_deliver_none hfront, ite_self]
      rfl
    | some r =>
      obtain ⟨all, outbox, w, hshown⟩ :=
        exists_run (showTo consume r consumers now.outbox) now.world
      rw [deliverLog_succ hfront hshown, run_deliver_succ hfront hshown, leftFor_append,
        leftFor_showLog, List.nil_append]
      cases all with
      | true =>
        rw [if_pos rfl, if_pos rfl, leftFor_cons, leftFor_left, List.length_append,
          ih ⟨outbox.pop other, w⟩]
        by_cases hother : other = channel
        · rw [if_pos hother, if_pos hother, if_pos hother]
          exact Nat.add_comm _ _
        · rw [if_neg hother, if_neg hother, if_neg hother]
          rfl
      | false => exact (ite_self 0).symm

theorem length_leftFor_callLog (call : Call κ) (now : Moment κ σ) :
    (leftFor channel (callLog consume limit now call)).length =
      if call.channel? = some channel then
        ((perform consume limit call now.outbox).run now.world).1.1
      else 0 := by
  cases call with
  | register | enqueue => rfl
  | report r =>
    simp only [Call.channel?, Option.some.injEq]
    exact length_leftFor_deliverLog r.channel _ ⟨now.outbox.enqueue r, now.world⟩
  | publish other =>
    simp only [Call.channel?, Option.some.injEq]
    exact length_leftFor_deliverLog other _ now

theorem delivered_eq_length_leftFor (calls : List (Call κ)) (now : Moment κ σ) :
    delivered channel calls ((performAll consume limit calls now.outbox).run now.world).1.1 =
      (leftFor channel (logOf consume limit calls now)).length := by
  induction calls generalizing now with
  | nil => rfl
  | cons call calls ih =>
    rw [logOf, leftFor_append, List.length_append, length_leftFor_callLog, ← ih]
    rfl

end Counted

/-! ### Every delivery stops -/

section Stopping

variable {consume : κ → Report → StateM σ (Bool × List Report)}
variable {channel : Channel} {limit : Nat}

/-- Whether each delivery that begins in a log comes to its end there. -/
def AllStop (log : List (Entry κ)) : Prop :=
  ∀ before channel after, log = before ++ .began channel :: after →
    ∃ during rest, after = during ++ .stopped channel :: rest ∧ ∀ e ∈ during, e.Delivers channel

theorem allStop_of_notMem {log : List (Entry κ)} (h : ∀ other, .began other ∉ log) :
    AllStop log := by
  intro before other after hsplit
  refine absurd ?_ (h other)
  rw [hsplit]
  exact List.mem_append_right before List.mem_cons_self

theorem AllStop.append {log more : List (Entry κ)} (hlog : AllStop log) (hmore : AllStop more) :
    AllStop (log ++ more) := by
  intro before other after hsplit
  -- The delivery begins in the second log or in the first one, which also ends it.
  rcases List.append_eq_append_iff.1 hsplit with ⟨middle, hbefore, hrest⟩ | ⟨middle, hfirst, hrest⟩
  · exact hmore middle other after hrest
  · cases middle with
    | nil => exact hmore [] other after hrest.symm
    | cons e middle =>
      obtain ⟨rfl, hafter⟩ := List.cons_eq_cons.1 (hrest.trans (List.cons_append ..))
      obtain ⟨during, rest, hmiddle, hduring⟩ := hlog before other middle hfirst
      refine ⟨during, rest ++ more, ?_, hduring⟩
      rw [hafter, hmiddle, List.append_assoc, List.cons_append]

/-- A delivery that does not reach the limit stops by itself. -/
theorem deliverLog_eq_of_lt (consumers : List κ) (now : Moment κ σ)
    (h : ((deliver consume channel consumers limit now.outbox).run now.world).1.1 < limit) :
    ∃ during, deliverLog consume channel consumers limit now = during ++ [.stopped channel] ∧
      ∀ e ∈ during, e.Delivers channel := by
  induction limit generalizing now with
  | zero => exact absurd h (Nat.not_lt_zero _)
  | succ limit ih =>
    cases hfront : (now.outbox.queue channel).head? with
    | none =>
      rw [deliverLog_none hfront]
      exact ⟨[], rfl, List.forall_mem_nil _⟩
    | some r =>
      obtain ⟨all, outbox, w, hshown⟩ :=
        exists_run (showTo consume r consumers now.outbox) now.world
      rw [run_deliver_succ hfront hshown] at h
      rw [deliverLog_succ hfront hshown]
      cases all with
      | true =>
        obtain ⟨during, hrest, hduring⟩ := ih ⟨outbox.pop channel, w⟩ (Nat.lt_of_succ_lt_succ h)
        refine ⟨showLog consume channel r consumers now ++ .left channel r :: during, ?_, ?_⟩
        · rw [if_pos rfl, hrest, List.append_assoc, List.cons_append]
        · have hleft : (Entry.left channel r : Entry κ).Delivers channel := rfl
          have hthen := List.forall_mem_cons.2 ⟨hleft, hduring⟩
          exact List.forall_mem_append.2 ⟨delivers_showLog now, hthen⟩
      | false => exact ⟨_, rfl, delivers_showLog now⟩

/-- A higher limit makes no difference to a delivery that does not reach the limit. -/
theorem deliver_add_of_lt (consumers : List κ) (more : Nat) (now : Moment κ σ)
    (h : ((deliver consume channel consumers limit now.outbox).run now.world).1.1 < limit) :
    (deliver consume channel consumers (limit + more) now.outbox).run now.world =
        (deliver consume channel consumers limit now.outbox).run now.world ∧
      deliverLog consume channel consumers (limit + more) now =
        deliverLog consume channel consumers limit now := by
  induction limit generalizing now with
  | zero => exact absurd h (Nat.not_lt_zero _)
  | succ limit ih =>
    rw [Nat.succ_add]
    cases hfront : (now.outbox.queue channel).head? with
    | none =>
      rw [run_deliver_none hfront, run_deliver_none hfront, deliverLog_none hfront,
        deliverLog_none hfront]
      exact ⟨rfl, rfl⟩
    | some r =>
      obtain ⟨all, outbox, w, hshown⟩ :=
        exists_run (showTo consume r consumers now.outbox) now.world
      rw [run_deliver_succ hfront hshown] at h ⊢
      rw [run_deliver_succ hfront hshown, deliverLog_succ hfront hshown,
        deliverLog_succ hfront hshown]
      cases all with
      | true =>
        obtain ⟨hrun, hlog⟩ := ih ⟨outbox.pop channel, w⟩ (Nat.lt_of_succ_lt_succ h)
        rw [hlog, if_pos rfl, if_pos rfl]
        dsimp only at hrun ⊢
        rw [hrun]
        exact ⟨rfl, rfl⟩
      | false => exact ⟨rfl, rfl⟩

theorem allStop_publishLog (now : Moment κ σ)
    (h : ((publish consume limit channel now.outbox).run now.world).1.1 < limit) :
    AllStop (publishLog consume limit channel now) := by
  obtain ⟨during, hdeliver, hduring⟩ := deliverLog_eq_of_lt (now.outbox.consumers channel) now h
  rw [publishLog, hdeliver]
  intro before other after hsplit
  cases before with
  | nil =>
    cases hsplit
    exact ⟨during, [], rfl, hduring⟩
  | cons e before =>
    obtain ⟨-, hrest⟩ := List.cons_eq_cons.1 (hsplit.trans (List.cons_append ..))
    have hnone : ∀ another, .began another ∉ during ++ [.stopped channel] := by
      intro another hmem
      rcases List.mem_append.1 hmem with hin | hin
      · exact hduring _ hin
      · cases List.mem_singleton.1 hin
    exact allStop_of_notMem hnone before other after hrest

theorem allStop_callLog (call : Call κ) (now : Moment κ σ)
    (h : ((perform consume limit call now.outbox).run now.world).1.1 < limit) :
    AllStop (callLog consume limit now call) := by
  have hsingle : ∀ e : Entry κ, (∀ other, e ≠ .began other) → AllStop [e] := by
    intro e he
    refine allStop_of_notMem fun other hmem => ?_
    exact he other (List.mem_singleton.1 hmem).symm
  cases call with
  | register | enqueue => exact hsingle _ nofun
  | report r =>
    have hpublish := allStop_publishLog ⟨now.outbox.enqueue r, now.world⟩ h
    exact (hsingle (.enqueue r) nofun).append hpublish
  | publish channel => exact allStop_publishLog now h

theorem allStop_logOf (calls : List (Call κ)) (now : Moment κ σ)
    (h : ∀ count ∈ ((performAll consume limit calls now.outbox).run now.world).1.1,
      count < limit) :
    AllStop (logOf consume limit calls now) := by
  induction calls generalizing now with
  | nil => exact allStop_of_notMem fun _ => List.not_mem_nil
  | cons call calls ih =>
    rw [run_performAll_cons] at h
    obtain ⟨hcall, hcalls⟩ := List.forall_mem_cons.1 h
    exact (allStop_callLog call now hcall).append (ih (.after _) hcalls)

theorem perform_add_of_lt (call : Call κ) (more : Nat) (now : Moment κ σ)
    (h : ((perform consume limit call now.outbox).run now.world).1.1 < limit) :
    (perform consume (limit + more) call now.outbox).run now.world =
        (perform consume limit call now.outbox).run now.world ∧
      callLog consume (limit + more) now call = callLog consume limit now call := by
  cases call with
  | register | enqueue => exact ⟨rfl, rfl⟩
  | report r =>
    obtain ⟨hrun, hlog⟩ := deliver_add_of_lt _ more ⟨now.outbox.enqueue r, now.world⟩ h
    rw [callLog, callLog, publishLog, publishLog, hlog]
    exact ⟨hrun, rfl⟩
  | publish channel =>
    obtain ⟨hrun, hlog⟩ := deliver_add_of_lt _ more now h
    rw [callLog, callLog, publishLog, publishLog, hlog]
    exact ⟨hrun, rfl⟩

theorem performAll_add_of_lt (calls : List (Call κ)) (more : Nat) (now : Moment κ σ)
    (h : ∀ count ∈ ((performAll consume limit calls now.outbox).run now.world).1.1,
      count < limit) :
    (performAll consume (limit + more) calls now.outbox).run now.world =
        (performAll consume limit calls now.outbox).run now.world ∧
      logOf consume (limit + more) calls now = logOf consume limit calls now := by
  induction calls generalizing now with
  | nil => exact ⟨rfl, rfl⟩
  | cons call calls ih =>
    rw [run_performAll_cons] at h
    obtain ⟨hcall, hcalls⟩ := List.forall_mem_cons.1 h
    obtain ⟨hrun, hlog⟩ := perform_add_of_lt call more now hcall
    obtain ⟨hruns, hlogs⟩ := ih (.after _) hcalls
    dsimp only [Moment.after] at hruns hlogs
    constructor
    · rw [run_performAll_cons, run_performAll_cons, hrun]
      dsimp only
      rw [hruns]
    · rw [logOf, logOf, hlog, hrun, Moment.after, hlogs]

end Stopping

end Rollout.Outbox
