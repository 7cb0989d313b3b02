import Mathlib.Data.List.Chain
import Mathlib.Data.List.Nodup
import Mathlib.Data.List.Perm.Subperm
import Rollout.Record

/-!
# The life of a record

A record is asked again and again to take a step, and each `Call` is carried out or refused.
`Call.on` says what `Record.advance`, `Record.succeed` and `Record.failWith` give.  `Call.inPlace`
is the same work on one record, one field after another, where what a refused call leaves behind can
be told; a call is answered alike in both (`on_of_allowed`, `inPlace_of_allowed` and the two lemmas
on refusals).  After any calls on a new record, its history is a path of allowed steps to its stage,
and it notes the one failure that was accepted, if there was one (`Consistent`).
-/

namespace Rollout.Record

open Calendar (Instant)

/-! ### Calls -/

/-- What can be asked of a record. -/
inductive Call where
  | advance (stage : Stage)
  | succeed
  | failWith (failure : Failure)

namespace Call

/-- The stage that a call asks for. -/
def target : Call → Stage
  | advance stage => stage
  | succeed => .succeeded
  | failWith failure => failure.finalStage

def on (now : Instant) : Call → Record → Except IllegalStep Record
  | advance stage, r => r.advance now stage
  | succeed, r => r.succeed now
  | failWith failure, r => r.failWith now failure

end Call

/-- Work on one record.  What it has written is not undone if a later part is refused. -/
abbrev InPlace := ExceptT IllegalStep (StateM Record)

def amend (change : Record → Record) : InPlace Unit := modify change

def enter (now : Instant) (stage : Stage) : InPlace Unit := do
  let source := (← get).stage
  if source.canBecome stage then
    amend fun r => { r with stage := stage }
    amend fun r => { r with history := r.history ++ [(stage, now)] }
  else throw ⟨source, stage⟩

/-- The work of a call on a record, one field after another. -/
def Call.inPlace (now : Instant) : Call → InPlace Unit
  | advance stage => enter now stage
  | succeed => enter now .succeeded
  | failWith failure => do
    enter now failure.finalStage
    amend fun r => { r with detailedStatus := some failure.detailedStatus }
    amend fun r => { r with errorStack := failure.stack }
    amend fun r => { r with errorKinds := failure.kinds }
    amend fun r => { r with cause := some failure.message }

/-- Calls one after another, each at its time: the answers to them, and the record behind them. -/
def inTurn (calls : List (Call × Instant)) : StateM Record (List (Except IllegalStep Unit)) :=
  calls.mapM fun c => (c.1.inPlace c.2).run

def Call.failure? : Call → Option Failure
  | failWith failure => some failure
  | _ => none

/-- The failures of those calls that were carried out. -/
def noted (calls : List (Call × Instant)) (answers : List (Except IllegalStep Unit)) :
    List Failure :=
  (calls.zip answers).filterMap fun c => if c.2.isOk then c.1.1.failure? else none

def stages (r : Record) : List Stage := r.history.map Prod.fst

/-! ### One call -/

def entered (now : Instant) (stage : Stage) (r : Record) : Record :=
  { r with stage := stage, history := r.history ++ [(stage, now)] }

/-- The record behind a call that is carried out. -/
def Call.done (now : Instant) (call : Call) (r : Record) : Record :=
  call.failure?.elim (r.entered now call.target) fun failure =>
    (r.entered now call.target).note failure

section OneCall

variable {r : Record} {call : Call} (now : Instant)

theorem on_of_allowed (h : r.stage.canBecome call.target = true) :
    call.on now r = .ok (call.done now r) := by
  have hstep : r.advance now call.target = .ok (r.entered now call.target) := if_pos h
  cases call with
  | advance stage => exact hstep
  | succeed => exact hstep
  | failWith failure => exact congrArg (Except.map (note failure)) hstep

theorem on_of_refused (h : r.stage.canBecome call.target = false) :
    call.on now r = .error ⟨r.stage, call.target⟩ := by
  have hstep : r.advance now call.target = .error ⟨r.stage, call.target⟩ :=
    if_neg (Bool.eq_false_iff.1 h)
  cases call with
  | advance stage => exact hstep
  | succeed => exact hstep
  | failWith failure => exact congrArg (Except.map (note failure)) hstep

theorem run_enter (stage : Stage) : (enter now stage).run.run r =
    if r.stage.canBecome stage then (.ok (), r.entered now stage)
    else (.error ⟨r.stage, stage⟩, r) := by
  show (if r.stage.canBecome stage = true then
    (do amend fun r => { r with stage := stage }
        amend fun r => { r with history := r.history ++ [(stage, now)] } : InPlace Unit)
    else throw ⟨r.stage, stage⟩).run.run r = _
  split
  · rfl
  · rfl

theorem inPlace_of_allowed (h : r.stage.canBecome call.target = true) :
    (call.inPlace now).run.run r = (.ok (), call.done now r) := by
  have henter := run_enter (r := r) now call.target
  rw [if_pos h] at henter
  cases call with
  | advance stage => exact henter
  | succeed => exact henter
  | failWith failure =>
    rw [Call.target] at henter
    rw [Call.inPlace, ExceptT.run_bind, StateT.run_bind, henter]
    rfl

theorem inPlace_of_refused (h : r.stage.canBecome call.target = false) :
    (call.inPlace now).run.run r = (.error ⟨r.stage, call.target⟩, r) := by
  have henter := run_enter (r := r) now call.target
  rw [if_neg (Bool.eq_false_iff.1 h)] at henter
  cases call with
  | advance stage => exact henter
  | succeed => exact henter
  | failWith failure =>
    rw [Call.target] at henter
    rw [Call.inPlace, ExceptT.run_bind, StateT.run_bind, henter]
    rfl

end OneCall

/-! ### Stages only go forward -/

/-- How many steps lead to a stage. -/
def depth : Stage → Nat
  | .queued => 0
  | .validating => 1
  | .arbitrating => 2
  | .applying => 3
  | .succeeded | .rejected | .failed => 4

theorem depth_lt_of_canBecome {a b : Stage} (h : a.canBecome b = true) : depth a < depth b := by
  cases a <;> cases b <;> first | exact absurd h Bool.false_ne_true | decide

theorem depth_lt (a : Stage) : depth a < 5 := by
  cases a <;> decide

theorem canBecome_of_isFinal {a : Stage} (h : a.isFinal = true) (b : Stage) :
    a.canBecome b = false := by
  cases a <;> first | rfl | cases h

theorem isFinal_finalStage (failure : Failure) : failure.finalStage.isFinal = true := by
  cases failure <;> rfl

section Paths

variable {path : List Stage} (h : path.IsChain fun a b => a.canBecome b = true)

include h

theorem pairwise_depth_of_isChain : (path.map depth).Pairwise (· < ·) := by
  have hchain : path.IsChain fun a b => depth a < depth b :=
    h.imp fun _ _ => depth_lt_of_canBecome
  exact List.isChain_iff_pairwise.1 (List.isChain_map_of_isChain depth (fun _ _ => id) hchain)

/-- No stage occurs twice on a path of allowed steps, which therefore has at most five stages. -/
theorem nodup_of_isChain : path.Nodup ∧ path.length ≤ 5 := by
  have hdepths : (path.map depth).Nodup :=
    (pairwise_depth_of_isChain h).imp fun hlt => Nat.ne_of_lt hlt
  refine ⟨hdepths.of_map, ?_⟩
  have hfew : path.map depth ⊆ List.range 5 := by
    intro n hn
    obtain ⟨a, -, rfl⟩ := List.mem_map.1 hn
    exact List.mem_range.2 (depth_lt a)
  have hlength := (List.subperm_of_subset hdepths hfew).length_le
  rwa [List.length_map, List.length_range] at hlength

end Paths

/-! ### What calls keep -/

/-- Whether a record notes just a failure, or nothing where there is none. -/
structure Notes (r : Record) (failure? : Option Failure) : Prop where
  status : r.detailedStatus = failure?.map Failure.detailedStatus
  stack : r.errorStack = (failure?.map Failure.stack).getD []
  kinds : r.errorKinds = (failure?.map Failure.kinds).getD []
  cause : r.cause = failure?.map Failure.message

/-- Whether the history of a record is a path of allowed steps to its stage. -/
structure Travelled (r : Record) : Prop where
  first : r.stages.head? = some .queued
  steps : r.stages.IsChain fun a b => a.canBecome b = true
  last : r.stages.getLast? = some r.stage

/-- What calls keep of a record: its path, and that it notes just the failure that ended it. -/
structure Consistent (r : Record) (failure? : Option Failure) : Prop where
  travelled : r.Travelled
  notes : r.Notes failure?
  ended : ∀ failure, failure? = some failure → r.stage = failure.finalStage

theorem consistent_queued (deployment : String) (channel : Channel) (start : Instant) :
    (queued deployment channel start).Consistent none :=
  ⟨⟨rfl, .singleton _, rfl⟩, ⟨rfl, rfl, rfl, rfl⟩, fun _ h => nomatch h⟩

section Kept

variable {r : Record} {failure? : Option Failure}

theorem Travelled.entered (h : r.Travelled) {stage : Stage}
    (hallowed : r.stage.canBecome stage = true) (now : Instant) :
    (r.entered now stage).Travelled := by
  have hstages : (r.entered now stage).stages = r.stages ++ [stage] := List.map_append
  refine ⟨?_, ?_, ?_⟩
  · rw [hstages, List.head?_append, h.first]
    rfl
  · rw [hstages, List.isChain_append]
    refine ⟨h.steps, .singleton _, ?_⟩
    rintro a ha b ⟨⟩
    rw [h.last] at ha
    cases ha
    exact hallowed
  · rw [hstages, List.getLast?_concat]
    rfl

theorem Consistent.done (h : r.Consistent failure?) {call : Call}
    (hallowed : r.stage.canBecome call.target = true) (now : Instant) :
    failure? = none ∧ (call.done now r).Consistent call.failure? := by
  -- a failure was noted only on the way to a final stage, from which no step is allowed
  have hnone : failure? = none := by
    cases failure? with
    | none => rfl
    | some failure =>
      have hfinal : r.stage.isFinal = true :=
        (congrArg Stage.isFinal (h.ended failure rfl)).trans (isFinal_finalStage failure)
      rw [canBecome_of_isFinal hfinal] at hallowed
      exact absurd hallowed Bool.false_ne_true
  subst hnone
  have htravelled := h.travelled.entered hallowed now
  have hnotes : (r.entered now call.target).Notes none :=
    ⟨h.notes.status, h.notes.stack, h.notes.kinds, h.notes.cause⟩
  refine ⟨rfl, ?_⟩
  cases call with
  | advance stage => exact ⟨htravelled, hnotes, fun _ h => nomatch h⟩
  | succeed => exact ⟨htravelled, hnotes, fun _ h => nomatch h⟩
  | failWith failure =>
    refine ⟨⟨htravelled.first, htravelled.steps, htravelled.last⟩, ⟨rfl, rfl, rfl, rfl⟩, ?_⟩
    rintro _ ⟨⟩
    rfl

end Kept

/-! ### Calls one after another -/

theorem run_inTurn_cons {call : Call} {now : Instant} {r r' : Record}
    {answer : Except IllegalStep Unit} (h : (call.inPlace now).run.run r = (answer, r'))
    (calls : List (Call × Instant)) : (inTurn ((call, now) :: calls)).run r =
      (answer :: ((inTurn calls).run r').1, ((inTurn calls).run r').2) := by
  rw [inTurn, List.mapM_cons, StateT.run_bind]
  show (do
    let rest ← (inTurn calls).run ((call.inPlace now).run.run r).2
    pure (((call.inPlace now).run.run r).1 :: rest.1, rest.2) : Id _) = _
  rw [h]
  rfl

theorem noted_cons (call : Call) (now : Instant) (calls : List (Call × Instant))
    (answer : Except IllegalStep Unit) (answers : List (Except IllegalStep Unit)) :
    noted ((call, now) :: calls) (answer :: answers) =
      (if answer.isOk then call.failure? else none).toList ++ noted calls answers := by
  rw [noted, List.zip_cons_cons, List.filterMap_cons]
  cases if answer.isOk then call.failure? else none with
  | none => rfl
  | some failure => rfl

theorem Consistent.inTurn {r : Record} {failure? : Option Failure} (h : r.Consistent failure?)
    (calls : List (Call × Instant)) : ∃ failure'?, ((inTurn calls).run r).2.Consistent failure'? ∧
      failure'?.toList = failure?.toList ++ noted calls ((inTurn calls).run r).1 := by
  -- over the calls, from any record: a refused one changes nothing, any other adds its failure
  induction calls generalizing r failure? with
  | nil => exact ⟨failure?, h, (List.append_nil _).symm⟩
  | cons c calls ih =>
    obtain ⟨call, now⟩ := c
    cases hstep : r.stage.canBecome call.target with
    | false =>
      rw [run_inTurn_cons (inPlace_of_refused now hstep), noted_cons]
      exact ih h
    | true =>
      rw [run_inTurn_cons (inPlace_of_allowed now hstep), noted_cons]
      obtain ⟨rfl, hdone⟩ := h.done hstep now
      exact ih hdone

theorem run_inTurn_of_isFinal {r : Record} (h : r.stage.isFinal = true)
    (calls : List (Call × Instant)) :
    (inTurn calls).run r = (calls.map fun c => .error ⟨r.stage, c.1.target⟩, r) := by
  induction calls with
  | nil => rfl
  | cons c calls ih =>
    obtain ⟨call, now⟩ := c
    rw [run_inTurn_cons (inPlace_of_refused now (canBecome_of_isFinal h call.target)), ih]
    rfl

/-- Whatever is asked of a new record, its history is a path of allowed steps from the first stage
to its stage, on which no stage occurs twice.  A call that is refused changes nothing in the record
and names the two stages, and a record in a final stage refuses everything.  What the record notes
is the failure of the one call that was accepted with a failure, and nothing if there was none. -/
theorem history_follows_stages (deployment : String) (channel : Channel) (start : Instant)
    (calls : List (Call × Instant)) :
    let run := (inTurn calls).run (queued deployment channel start)
    let r := run.2
    (r.Travelled ∧ r.stages.Nodup ∧ r.history.length ≤ 5) ∧
    (∀ (call : Call) (now : Instant),
      if r.stage.canBecome call.target then
        ∃ r', call.on now r = .ok r' ∧ (call.inPlace now).run.run r = (.ok (), r')
      else call.on now r = .error ⟨r.stage, call.target⟩ ∧
        (call.inPlace now).run.run r = (.error ⟨r.stage, call.target⟩, r)) ∧
    (r.stage.isFinal = true → ∀ more : List (Call × Instant),
      (inTurn more).run r = (more.map fun c => .error ⟨r.stage, c.1.target⟩, r)) ∧
    ∃ failure? : Option Failure, noted calls run.1 = failure?.toList ∧ r.Notes failure? ∧
      (r.stage = .succeeded → failure? = none) := by
  intro run r
  obtain ⟨failure?, hconsistent, hnoted⟩ :=
    (consistent_queued deployment channel start).inTurn calls
  obtain ⟨hnodup, hlength⟩ := nodup_of_isChain hconsistent.travelled.steps
  rw [stages, List.length_map] at hlength
  refine ⟨⟨hconsistent.travelled, hnodup, hlength⟩, ?_, run_inTurn_of_isFinal,
    failure?, hnoted.symm, hconsistent.notes, ?_⟩
  · intro call now
    cases hstep : r.stage.canBecome call.target with
    | true => exact ⟨_, on_of_allowed now hstep, inPlace_of_allowed now hstep⟩
    | false => exact ⟨on_of_refused now hstep, inPlace_of_refused now hstep⟩
  · intro hsucceeded
    cases failure? with
    | none => rfl
    | some failure =>
      have hend : Stage.succeeded = failure.finalStage :=
        hsucceeded.symm.trans (hconsistent.ended failure rfl)
      cases failure <;> cases hend

/-- A failure to apply is refused before there is anything to apply, a rejection is accepted, and
nothing is accepted after it. -/
theorem history_follows_stages_to_rejection :
    let calls : List (Call × Instant) :=
      [(.advance .validating, .epoch), (.failWith (.apply ⟨"boom", none⟩), .epoch),
        (.failWith (.unsupported ["X"]), .epoch), (.succeed, .epoch)]
    let run := (inTurn calls).run (queued "d1" .jobs .epoch)
    run.1 = [.ok (), .error ⟨.validating, .failed⟩, .ok (), .error ⟨.rejected, .succeeded⟩] ∧
      run.2.stage.isFinal = true ∧ run.2.Travelled ∧
      ∃ failure?, noted calls run.1 = failure?.toList ∧ run.2.Notes failure? := by
  intro calls run
  obtain ⟨⟨htravelled, -, -⟩, -, -, failure?, hnoted, hnotes, -⟩ :=
    history_follows_stages "d1" .jobs .epoch calls
  exact ⟨rfl, rfl, htravelled, failure?, hnoted, hnotes⟩

end Rollout.Record
