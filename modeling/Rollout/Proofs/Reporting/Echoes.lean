import Mathlib.Logic.Hydra
import Mathlib.Order.WellFoundedSet
import Rollout.Proofs.Delivery

/-!
# Consumers that queue further reports

A consumer may answer each report of a deployment with a report that it queues itself.  A delivery
then works on a queue that grows; but it comes to its end unless reports lead back to reports of the
same deployment.  The queue is a multiset of deployments of which each turn of the delivery takes
one away and puts in only such as it leads to.
-/

namespace Rollout.Outbox

open Relation (TransGen CutExpand)

variable {κ σ : Type}

/-! ### Echoes -/

/-- Consumers that answer as they like.  One that is shown a report of a deployment in its table
queues the report that stands there, whatever it answers. -/
def echoing (answer : κ → Report → StateM σ Bool) (echoes : κ → NameMap Report) (consumer : κ)
    (r : Report) : StateM σ (Bool × List Report) := do
  return (← answer consumer r, ((echoes consumer).find? r.deployment).toList)

/-- Whether one of some consumers answers a report of the first deployment with a report of the
second one for the same channel. -/
def LeadsTo (echoes : κ → NameMap Report) (channel : Channel) (consumers : List κ)
    (deployment next : String) : Prop :=
  ∃ consumer ∈ consumers, ∃ r, (echoes consumer).find? deployment = some r ∧
    r.channel = channel ∧ r.deployment = next

/-- A relation without cycles cannot be followed for ever if only finitely many things lead on. -/
theorem wellFounded_of_acyclic {α : Type} {leads : α → α → Prop} (sources : List α)
    (hsources : ∀ a b, leads a b → a ∈ sources) (hacyclic : ∀ a, ¬TransGen leads a a) :
    WellFounded fun b a => leads a b := by
  let after (b a : α) : Prop := TransGen leads a b
  have : IsStrictOrder α after :=
    { irrefl := hacyclic, trans := fun _ _ _ hcb hba => TransGen.trans hba hcb }
  have hsome : {a | a ∈ sources}.WellFoundedOn after := (List.finite_toSet sources).wellFoundedOn
  have hrestricted := Set.wellFoundedOn_iff.1 hsome
  refine ⟨fun a => ?_⟩
  induction a using hrestricted.induction with
  | _ a ih =>
    refine ⟨a, fun b hab => ?_⟩
    by_cases hb : b ∈ sources
    · exact ih b ⟨.single hab, hb, hsources a b hab⟩
    · exact ⟨b, fun c hbc => absurd (hsources b c hbc) hb⟩

section Delivery

variable {answer : κ → Report → StateM σ Bool} {echoes : κ → NameMap Report} {channel : Channel}
  {consumers : List κ}

theorem wellFounded_leadsTo (hacyclic : ∀ id, ¬TransGen (LeadsTo echoes channel consumers) id id) :
    WellFounded fun next id => LeadsTo echoes channel consumers id next := by
  refine wellFounded_of_acyclic (consumers.flatMap fun k => (echoes k).names) ?_ hacyclic
  rintro id - ⟨consumer, hconsumer, r, hfind, -⟩
  refine List.mem_flatMap.2 ⟨consumer, hconsumer, ?_⟩
  exact NameMap.mem_names.2 ⟨r, hfind⟩

/-- Reports that are shown are only answered with reports that they lead to. -/
theorem queue_showTo (answer : κ → Report → StateM σ Bool) {shown : List κ}
    (hshown : ∀ consumer ∈ shown, consumer ∈ consumers)
    (r : Report) (outbox : Outbox κ) (w : σ) :
    ∃ added,
      ((showTo (echoing answer echoes) r shown outbox).run w).1.2.queue channel =
        outbox.queue channel ++ added ∧
      ∀ r' ∈ added, LeadsTo echoes channel consumers r.deployment r'.deployment := by
  induction shown generalizing outbox w with
  | nil => exact ⟨[], (List.append_nil _).symm, List.forall_mem_nil _⟩
  | cons consumer rest ih =>
    obtain ⟨hconsumer, hrest⟩ := List.forall_mem_cons.1 hshown
    rcases hanswer : (answer consumer r).run w with ⟨accepted, w'⟩
    let echo := ((echoes consumer).find? r.deployment).toList
    have hrun : (echoing answer echoes consumer r).run w = ((accepted, echo), w') := by
      rw [echoing, StateT.run_bind, hanswer]
      rfl
    have hecho : ∀ r' ∈ echo.filter fun r => r.channel = channel,
        LeadsTo echoes channel consumers r.deployment r'.deployment := by
      intro r' hmem
      obtain ⟨hfound, hchannel⟩ := List.mem_filter.1 hmem
      exact ⟨consumer, hconsumer, r', Option.mem_toList.1 hfound, of_decide_eq_true hchannel, rfl⟩
    rw [@run_showTo_cons _ _ _ r ⟨outbox, w⟩ _ _ _ _ _ hrun]
    cases accepted with
    | true =>
      obtain ⟨added, hqueue, hadded⟩ := ih hrest (outbox.enqueueAll echo) w'
      refine ⟨echo.filter (fun r => r.channel = channel) ++ added, ?_,
        List.forall_mem_append.2 ⟨hecho, hadded⟩⟩
      rw [if_pos rfl, hqueue, queue_enqueueAll, List.append_assoc]
    | false => exact ⟨_, queue_enqueueAll _ _ _, hecho⟩

/-! ### The queue shrinks -/

/-- The deployments whose reports wait for the consumers of a channel. -/
def due (channel : Channel) (outbox : Outbox κ) : Multiset String :=
  ((outbox.queue channel).map Report.deployment : List String)

/-- A turn of the delivery takes one deployment away and puts in only those that it leads to. -/
theorem due_shrinks {outbox outbox' : Outbox κ} {r : Report} {added : List Report}
    (hfront : (outbox.queue channel).head? = some r)
    (hqueue : outbox'.queue channel = outbox.queue channel ++ added)
    (hadded : ∀ r' ∈ added, LeadsTo echoes channel consumers r.deployment r'.deployment) :
    CutExpand (fun next id => LeadsTo echoes channel consumers id next)
      (due channel (outbox'.pop channel)) (due channel outbox) := by
  obtain ⟨rest, hrest⟩ := List.head?_eq_some_iff.1 hfront
  refine ⟨(added.map Report.deployment : List String), r.deployment, ?_, ?_⟩
  · intro next hnext
    obtain ⟨r', hmem, rfl⟩ := List.mem_map.1 (Multiset.mem_coe.1 hnext)
    exact hadded r' hmem
  · have hleft : (outbox'.pop channel).queue channel = rest ++ added := by
      rw [queue_pop, hqueue, hrest]
      rfl
    rw [due, due, hleft, hrest, List.map_append, List.map_cons, ← Multiset.coe_add,
      ← Multiset.cons_coe, Multiset.cons_add, add_comm, Multiset.singleton_add]

/-- A delivery on which no report leads back to itself does not reach a high enough limit. -/
theorem exists_limit (answer : κ → Report → StateM σ Bool)
    (hacyclic : ∀ id, ¬TransGen (LeadsTo echoes channel consumers) id id) (outbox : Outbox κ)
    (w : σ) :
    ∃ limit, ((deliver (echoing answer echoes) channel consumers limit outbox).run w).1.1 <
      limit := by
  induction hdue : due channel outbox using (wellFounded_leadsTo hacyclic).cutExpand.induction
    generalizing outbox w with
  | _ ids ih =>
    subst hdue
    cases hfront : (outbox.queue channel).head? with
    | none =>
      refine ⟨1, ?_⟩
      rw [@run_deliver_none _ _ _ _ _ _ ⟨outbox, w⟩ hfront]
      exact Nat.one_pos
    | some r =>
      obtain ⟨added, hqueue, hadded⟩ :=
        queue_showTo answer (fun _ hmem => hmem) r outbox w
      rcases hshown : (showTo (echoing answer echoes) r consumers outbox).run w with
        ⟨⟨all, outbox'⟩, w'⟩
      rw [hshown] at hqueue
      have hrun := fun limit =>
        @run_deliver_succ _ _ _ limit _ _ _ ⟨outbox, w⟩ hfront _ _ _ hshown
      cases all with
      | true =>
        obtain ⟨limit, hlimit⟩ :=
          ih _ (due_shrinks hfront hqueue hadded) (outbox'.pop channel) w' rfl
        refine ⟨limit + 1, ?_⟩
        rw [hrun, if_pos rfl]
        exact Nat.succ_lt_succ hlimit
      | false =>
        refine ⟨1, ?_⟩
        rw [hrun, if_neg Bool.false_ne_true]
        exact Nat.one_pos

/-! ### What leaves the queue -/

/-- What was queued at the start or during a delivery has left or still waits. -/
theorem delivered_add_waiting (consume : κ → Report → StateM σ (Bool × List Report)) (limit : Nat)
    (channel : Channel) (outbox : Outbox κ) (w : σ) :
    let result := (outbox.publish consume limit channel).run w
    result.1.1 + (result.1.2.queue channel).length = (outbox.queue channel).length +
      (queuedFor channel (publishLog consume limit channel ⟨outbox, w⟩)).length := by
  intro result
  let now : Moment κ σ := ⟨outbox, w⟩
  let log := publishLog consume limit channel now
  have hjustified : AllJustified consume now [] log := allJustified_publishLog rfl
  have hstart : Conserved consume now channel [] := List.append_nil _
  have hconserved := congrArg List.length (conserved_of_allJustified hstart hjustified)
  have hreplay : replay consume log now = .after result := replay_callLog now (.publish channel)
  have hleft : (leftFor channel log).length = result.1.1 :=
    (length_leftFor_callLog (.publish channel) now).trans (if_pos rfl)
  rw [List.nil_append, hreplay, List.length_append, List.length_append, hleft] at hconserved
  exact hconserved.symm

end Delivery

/-- Every delivery ends, in whatever state the outbox and its consumers are, however these answer
and whatever tables of reports they queue, unless a report leads back to one of the same deployment.
There is a limit that the delivery does not reach, and beyond it the limit makes no difference:

* The delivery stops because no report of the channel is left, or because the oldest one was just
  refused.
* What has left and what still waits is as much as was queued at the start and during the delivery;
  so no more has left than was queued. -/
theorem delivery_ends (answer : κ → Report → StateM σ Bool) (echoes : κ → NameMap Report)
    (channel : Channel) (outbox : Outbox κ) (w : σ)
    (hacyclic : ∀ id, ¬TransGen (LeadsTo echoes channel (outbox.consumers channel)) id id) :
    ∃ limit,
      let consume := echoing answer echoes
      let result := (outbox.publish consume limit channel).run w
      let log := publishLog consume limit channel ⟨outbox, w⟩
      result.1.1 < limit ∧
      (∀ more, (outbox.publish consume (limit + more) channel).run w = result ∧
        publishLog consume (limit + more) channel ⟨outbox, w⟩ = log) ∧
      (∃ during, log = .began channel :: during ++ [.stopped channel] ∧
        (∀ e ∈ during, e.Delivers channel) ∧
        (result.1.2.queue channel = [] ∨
          ∃ r, (result.1.2.queue channel).head? = some r ∧
            JustRefused (.began channel :: during) channel r)) ∧
      result.1.1 + (result.1.2.queue channel).length =
        (outbox.queue channel).length + (queuedFor channel log).length ∧
      result.1.1 ≤ (outbox.queue channel).length + (queuedFor channel log).length := by
  obtain ⟨limit, hlimit⟩ := exists_limit answer hacyclic outbox w
  let consume := echoing answer echoes
  let now : Moment κ σ := ⟨outbox, w⟩
  have hcounted := delivered_add_waiting consume limit channel outbox w
  refine ⟨limit, hlimit, fun more => perform_add_of_lt (.publish channel) more now hlimit, ?_,
    hcounted, Nat.le_of_add_right_le (Nat.le_of_eq hcounted)⟩
  obtain ⟨during, hlog, hduring⟩ := deliverLog_eq_of_lt (outbox.consumers channel) now hlimit
  have hpublish : publishLog consume limit channel now =
      .began channel :: during ++ [.stopped channel] := by
    rw [publishLog, hlog]
    rfl
  refine ⟨during, hpublish, hduring, ?_⟩
  have hjustified : AllJustified consume now [] (publishLog consume limit channel now) :=
    allJustified_publishLog rfl
  have hstopped := hjustified _ _ [] hpublish
  have hreplay : replay consume (publishLog consume limit channel now) now =
    .after ((outbox.publish consume limit channel).run w) := replay_callLog now (.publish channel)
  rw [hpublish, replay_append] at hreplay
  -- the last entry changes nothing, so the delivery stops in the outbox that it leaves
  have hlast : replay consume (.began channel :: during) now = .after _ := hreplay
  rw [List.nil_append, Justified, hlast] at hstopped
  exact hstopped

/-- Two consumers, one of which answers each report of `d1` with one of `d2`: two reports are
queued, and four leave. -/
theorem delivery_ends_after_echoes :
    let report (id : String) := Report.ofRecord .epoch (.queued id .jobs .epoch)
    let echoes : Bool → NameMap Report := fun eager =>
      if eager then NameMap.ofList [("d1", report "d2")] else .empty
    let answer : Bool → Report → StateM Nat Bool := fun eager _ refusals =>
      if eager || refusals = 0 then (true, refusals) else (false, refusals - 1)
    let outbox : Outbox Bool := ⟨[report "d1", report "d1"],
      [⟨.jobs, "eager", true⟩, ⟨.jobs, "shy", false⟩]⟩
    (∀ id, ¬TransGen (LeadsTo echoes .jobs (outbox.consumers .jobs)) id id) ∧
    ∃ limit, ((outbox.publish (echoing answer echoes) limit .jobs).run 0).1.1 = 4 ∧ 4 < limit ∧
      4 ≤ 2 + (queuedFor .jobs
        (publishLog (echoing answer echoes) limit .jobs ⟨outbox, 0⟩)).length := by
  intro report echoes answer outbox
  have hleads : ∀ {id next}, LeadsTo echoes .jobs (outbox.consumers .jobs) id next →
      id = "d1" ∧ next = "d2" := by
    rintro id next ⟨consumer, -, r, hfind, -, rfl⟩
    cases consumer with
    | true =>
      have hmem : (id, r) ∈ (NameMap.ofList [("d1", report "d2")]).entries :=
        NameMap.mem_entries.2 hfind
      cases List.mem_singleton.1 hmem
      exact ⟨rfl, rfl⟩
    | false => cases hfind
  have hacyclic : ∀ id, ¬TransGen (LeadsTo echoes .jobs (outbox.consumers .jobs)) id id := by
    intro id hcycle
    obtain ⟨_, hfirst, -⟩ := TransGen.head'_iff.1 hcycle
    obtain ⟨_, -, hlast⟩ := TransGen.tail'_iff.1 hcycle
    have hsame := (hleads hfirst).1.symm.trans (hleads hlast).2
    exact absurd hsame (by decide)
  obtain ⟨limit, hlimit, hmore, -, -, hcounted⟩ :=
    delivery_ends answer echoes .jobs outbox 0 hacyclic
  have hfour : ((outbox.publish (echoing answer echoes) 5 .jobs).run 0).1.1 = 4 := by decide
  have hcount : ((outbox.publish (echoing answer echoes) limit .jobs).run 0).1.1 = 4 := by
    have hless : ((perform (echoing answer echoes) 5 (.publish .jobs) outbox).run 0).1.1 < 5 := by
      rw [perform, hfour]
      decide
    have hsame := (perform_add_of_lt (.publish .jobs) limit ⟨outbox, 0⟩ hless).1
    rw [← (hmore 5).1, Nat.add_comm limit, ← hfour]
    exact congrArg (fun result => result.1.1) hsame
  rw [hcount] at hlimit hcounted
  exact ⟨hacyclic, limit, hcount, hlimit, hcounted⟩

end Rollout.Outbox
