import Rollout.Proofs.Endings
import Rollout.Proofs.Series

/-!
# The queue and its worker

Deployments are submitted and a stop is asked for at any moment, while the one worker looks whether
it is to stop, takes the oldest deployment, processes it and answers the one who submitted it.  In
every interleaving of these steps the deployments are processed in the order of their submission, as
if nothing else happened, and each submission is answered once.  A worker that cannot count an
acceptance leaves, as if a stop was asked for.
-/

namespace Rollout.Queueing

/-! ### Steps -/

/-- Where the worker stands. -/
inductive Stand where
  /-- It is about to look whether a stop was asked for. -/
  | looking
  /-- It has seen no stop and is about to take a deployment. -/
  | taking
  | working (ticket : Ticket) (deployment : Deployment)
  /-- It has seen a stop, or it could not count an acceptance. -/
  | leaving
  /-- It has closed the intake. -/
  | closing
  | stopped
  deriving DecidableEq

/-- Where the worker stands when it has processed a deployment. -/
def Stand.after (outcome : Pipeline.Outcome) : Stand :=
  if outcome.isExhausted then leaving else looking

/-- Whether the worker does not take a further deployment. -/
def Stand.isOver : Stand → Bool
  | leaving | closing | stopped => true
  | _ => false

structure State (σ : Type) where
  intake : Intake
  stand : Stand
  pipeline : Pipeline
  world : σ

def State.start {σ : Type} (p : Pipeline) (w : σ) : State σ := ⟨.new, .looking, p, w⟩

/-- The turn of a deployment that is processed now. -/
def State.turn {σ : Type} (s : State σ) (d : Deployment) : Pipeline.Turn σ := ⟨d, s.world⟩

/-- What happens at the queue, with what comes of it. -/
inductive Action where
  | submit (deployment : Deployment) (answer : Except IntakeError Ticket)
  | stop
  | look
  | wait
  | take (ticket : Ticket) (deployment : Deployment)
  | finish (ticket : Ticket) (deployment : Deployment) (outcome : Pipeline.Outcome)
    (events : List Event)
  | leave
  | close
  | drop (waiting : List (Ticket × Deployment))

/-- Whether an action is one of the worker. -/
def Action.isWork : Action → Bool
  | submit _ _ | stop => false
  | _ => true

variable {σ : Type}

/-- The steps of the queue.  Only `submit` and `stop` are not the worker's. -/
inductive Step (env : Surroundings (StateM σ)) : State σ → Action → State σ → Prop
  | submit (s : State σ) (d : Deployment) :
    Step env s (.submit d (s.intake.submit d).1) { s with intake := (s.intake.submit d).2 }
  | stop (s : State σ) : Step env s .stop { s with intake := s.intake.stop }
  | look {s : State σ} (hstand : s.stand = .looking) (hgo : s.intake.stopping = false) :
    Step env s .look { s with stand := .taking }
  | leave {s : State σ} (hstand : s.stand = .looking) (hstop : s.intake.stopping = true) :
    Step env s .leave { s with stand := .leaving }
  | wait {s : State σ} (hstand : s.stand = .taking) (hnone : s.intake.waiting = []) :
    Step env s .wait { s with stand := .looking }
  | take {s : State σ} (hstand : s.stand = .taking) {ticket : Ticket} {d : Deployment}
      {rest : List (Ticket × Deployment)} (hnext : s.intake.waiting = (ticket, d) :: rest) :
    Step env s (.take ticket d)
      { s with intake := { s.intake with waiting := rest }, stand := .working ticket d }
  | finish {s : State σ} {ticket : Ticket} {d : Deployment} (hstand : s.stand = .working ticket d) :
    Step env s
      (.finish ticket d ((s.turn d).outcome env s.pipeline) ((s.turn d).events env s.pipeline))
      { s with
        stand := .after ((s.turn d).outcome env s.pipeline)
        pipeline := (s.turn d).next env s.pipeline
        world := (s.turn d).after env s.pipeline }
  | close {s : State σ} (hstand : s.stand = .leaving) :
    Step env s .close { s with intake := { s.intake with closed := true }, stand := .closing }
  | drop {s : State σ} (hstand : s.stand = .closing) :
    Step env s (.drop s.intake.waiting)
      { s with intake := { s.intake with waiting := [] }, stand := .stopped }

/-- What can come of a state, with all that happens on the way. -/
inductive Run (env : Surroundings (StateM σ)) (first : State σ) : List Action → State σ → Prop
  | start : Run env first [] first
  | step {log : List Action} {s s' : State σ} {a : Action} :
    Run env first log s → Step env s a s' → Run env first (log ++ [a]) s'

/-! ### What has happened -/

def submitted (log : List Action) : List (Ticket × Deployment) :=
  log.filterMap fun
    | .submit d (.ok ticket) => some (ticket, d)
    | _ => none

/-- The deployments that were processed, in the order in which this was done. -/
def processed (log : List Action) : List (Ticket × Deployment) :=
  log.filterMap fun
    | .finish ticket d _ _ => some (ticket, d)
    | _ => none

def outcomes (log : List Action) : List Pipeline.Outcome :=
  log.filterMap fun
    | .finish _ _ outcome _ => some outcome
    | _ => none

def journals (log : List Action) : List (List Event) :=
  log.filterMap fun
    | .finish _ _ _ events => some events
    | _ => none

def dropped (log : List Action) : List (Ticket × Deployment) :=
  log.flatMap fun
    | .drop waiting => waiting
    | _ => []

/-- What those who submitted a deployment are told in the end: its record, or that it was dropped,
which is also what they are told if there is no record. -/
def answers (log : List Action) : List (Ticket × Except IntakeError Record) :=
  log.flatMap fun
    | .finish ticket _ outcome _ => [(ticket, outcome.result.mapError fun _ => .dropped)]
    | .drop waiting => waiting.map fun x => (x.1, .error .dropped)
    | _ => []

def workSteps (log : List Action) : Nat := log.countP Action.isWork

/-! ### One step -/

def Stand.inWork : Stand → List (Ticket × Deployment)
  | working ticket d => [(ticket, d)]
  | _ => []

theorem Stand.after_eq (outcome : Pipeline.Outcome) :
    Stand.after outcome = .looking ∨ Stand.after outcome = .leaving := by
  unfold Stand.after
  cases outcome.isExhausted with
  | true => exact .inr rfl
  | false => exact .inl rfl

@[simp] theorem Stand.inWork_after (outcome : Pipeline.Outcome) :
    (Stand.after outcome).inWork = [] := by
  rcases Stand.after_eq outcome with h | h <;> rw [h] <;> rfl

@[simp] theorem Stand.after_ne_closing (outcome : Pipeline.Outcome) :
    Stand.after outcome ≠ .closing := by
  rcases Stand.after_eq outcome with h | h <;> rw [h] <;> nofun

@[simp] theorem Stand.after_ne_stopped (outcome : Pipeline.Outcome) :
    Stand.after outcome ≠ .stopped := by
  rcases Stand.after_eq outcome with h | h <;> rw [h] <;> nofun

/-- The deployments that are still to be processed or dropped. -/
def State.pending (s : State σ) : List (Ticket × Deployment) := s.stand.inWork ++ s.intake.waiting

/-! ### Actions as entries of a log -/

section Log

variable (log : List Action) (a : Action)

theorem submitted_snoc : submitted (log ++ [a]) = submitted log ++ submitted [a] :=
  List.filterMap_append

theorem processed_snoc : processed (log ++ [a]) = processed log ++ processed [a] :=
  List.filterMap_append

theorem outcomes_snoc : outcomes (log ++ [a]) = outcomes log ++ outcomes [a] :=
  List.filterMap_append

theorem journals_snoc : journals (log ++ [a]) = journals log ++ journals [a] :=
  List.filterMap_append

theorem dropped_snoc : dropped (log ++ [a]) = dropped log ++ dropped [a] := List.flatMap_append

theorem answers_snoc : answers (log ++ [a]) = answers log ++ answers [a] := List.flatMap_append

end Log

/-! ### Where the deployments are -/

/-- Whether each deployment that was submitted was processed or dropped, is in work or waits, all in
the order of submission, and each has a ticket of its own. -/
structure Placed (log : List Action) (s : State σ) : Prop where
  places : submitted log = processed log ++ s.pending ++ dropped log
  tickets : (submitted log).map Prod.fst = List.range s.intake.count
  closed : s.intake.closed = true ↔ s.stand = .closing ∨ s.stand = .stopped
  undropped : s.stand ≠ .stopped → dropped log = []
  empty : s.stand = .stopped → s.intake.waiting = []

theorem placed_start (p : Pipeline) (w : σ) : Placed [] (.start p w) := by
  constructor <;>
    simp [submitted, processed, dropped, State.start, State.pending, Stand.inWork, Intake.new]

/-- Whether an action neither takes in nor processes nor drops a deployment. -/
def Action.isIdle : Action → Bool
  | submit _ (.ok _) | finish _ _ _ _ | drop _ => false
  | _ => true

theorem views_of_isIdle {a : Action} (h : a.isIdle = true) :
    submitted [a] = [] ∧ processed [a] = [] ∧ dropped [a] = [] := by
  cases a with
  | submit d answer =>
    cases answer with
    | error e => exact ⟨rfl, rfl, rfl⟩
    | ok ticket => cases h
  | finish | drop => cases h
  | _ => exact ⟨rfl, rfl, rfl⟩

theorem Placed.idle {log : List Action} {s s' : State σ} {a : Action} (h : Placed log s)
    (hidle : a.isIdle = true) (hpending : s'.pending = s.pending)
    (hcount : s'.intake.count = s.intake.count)
    (hclosed : s'.intake.closed = true ↔ s'.stand = .closing ∨ s'.stand = .stopped)
    (hstopped : s'.stand = .stopped ↔ s.stand = .stopped)
    (hempty : s'.stand = .stopped → s'.intake.waiting = []) : Placed (log ++ [a]) s' := by
  obtain ⟨hsubmitted, hprocessed, hdropped⟩ := views_of_isIdle hidle
  constructor
  · rw [submitted_snoc, processed_snoc, dropped_snoc, hsubmitted, hprocessed, hdropped, hpending]
    simp only [List.append_nil, h.places]
  · rw [submitted_snoc, hsubmitted, List.append_nil, h.tickets, hcount]
  · exact hclosed
  · intro hstand
    rw [dropped_snoc, hdropped, List.append_nil]
    exact h.undropped fun hbefore => hstand (hstopped.2 hbefore)
  · exact hempty

theorem Placed.submit {log : List Action} {s : State σ} (h : Placed log s) (d : Deployment) :
    Placed (log ++ [.submit d (s.intake.submit d).1])
      { s with intake := (s.intake.submit d).2 } := by
  by_cases hopen : s.intake.closed = true
  · have hsubmit : s.intake.submit d = (.error .closed, s.intake) := by
      rw [Intake.submit, if_pos hopen]
    rw [hsubmit]
    exact h.idle rfl rfl rfl h.closed Iff.rfl h.empty
  · have hsubmit : s.intake.submit d = (.ok s.intake.count,
        { s.intake with
          waiting := s.intake.waiting ++ [(s.intake.count, d)]
          count := s.intake.count + 1 }) := by
      rw [Intake.submit, if_neg hopen]
    have hstopped : s.stand ≠ .stopped := fun hstand => hopen (h.closed.2 (.inr hstand))
    have hnew : submitted [.submit d (.ok s.intake.count)] = [(s.intake.count, d)] := rfl
    have hprocessed : processed [.submit d (.ok s.intake.count)] = [] := rfl
    have hdropped : dropped [.submit d (.ok s.intake.count)] = [] := rfl
    rw [hsubmit]
    constructor
    · rw [submitted_snoc, processed_snoc, dropped_snoc, hnew, hprocessed, hdropped, h.places,
        h.undropped hstopped]
      simp [State.pending]
    · rw [submitted_snoc, hnew, List.map_append, h.tickets, List.range_succ]
      rfl
    · exact h.closed
    · intro hstand
      rw [dropped_snoc, hdropped, List.append_nil]
      exact h.undropped hstand
    · exact fun hstand => absurd hstand hstopped

theorem Placed.step {env : Surroundings (StateM σ)} {log : List Action} {s s' : State σ}
    {a : Action} (h : Placed log s) (hstep : Step env s a s') : Placed (log ++ [a]) s' := by
  have hclosed := h.closed
  cases hstep with
  | submit d => exact h.submit d
  | stop => exact h.idle rfl rfl rfl h.closed Iff.rfl h.empty
  | look hstand | leave hstand | wait hstand =>
    rw [hstand] at hclosed
    refine h.idle rfl ?_ rfl ?_ ?_ nofun
    · simp [State.pending, hstand, Stand.inWork]
    · simp [hclosed]
    · simp [hstand]
  | take hstand hnext =>
    rw [hstand] at hclosed
    refine h.idle rfl ?_ rfl ?_ ?_ nofun
    · simp [State.pending, hstand, Stand.inWork, hnext]
    · simp [hclosed]
    · simp [hstand]
  | @finish ticket d hstand =>
    rw [hstand] at hclosed
    have hundropped : dropped log = [] := h.undropped (by rw [hstand]; nofun)
    have hnew : processed [.finish ticket d ((s.turn d).outcome env s.pipeline)
      ((s.turn d).events env s.pipeline)] = [(ticket, d)] := rfl
    have hwork : s.stand.inWork = [(ticket, d)] := by rw [hstand]; rfl
    constructor
    · rw [submitted_snoc, processed_snoc, dropped_snoc, hnew, h.places, hundropped]
      simp [State.pending, hwork, submitted, dropped]
    · rw [submitted_snoc, List.map_append, h.tickets]
      simp [submitted]
    · simp [hclosed]
    · intro _
      rw [dropped_snoc, hundropped]
      rfl
    · exact fun hstopped => absurd hstopped (Stand.after_ne_stopped _)
  | close hstand =>
    refine h.idle rfl ?_ rfl ?_ ?_ nofun
    · simp [State.pending, hstand, Stand.inWork]
    · simp
    · simp [hstand]
  | drop hstand =>
    rw [hstand] at hclosed
    have hundropped : dropped log = [] := h.undropped (by rw [hstand]; nofun)
    have hnew : dropped [.drop s.intake.waiting] = s.intake.waiting := List.append_nil _
    constructor
    · rw [submitted_snoc, processed_snoc, dropped_snoc, hnew, h.places, hundropped]
      simp [State.pending, hstand, Stand.inWork, submitted, processed]
    · rw [submitted_snoc, List.map_append, h.tickets]
      simp [submitted]
    · simp [hclosed]
    · exact fun hnot => absurd rfl hnot
    · exact fun _ => rfl

theorem placed_run {env : Surroundings (StateM σ)} {p : Pipeline} {w : σ} {log : List Action}
    {s : State σ} (h : Run env (.start p w) log s) : Placed log s := by
  induction h with
  | start => exact placed_start p w
  | step _ hstep ih => exact ih.step hstep

/-! ### What the worker does -/

/-- Whether the worker has done what comes of the processed deployments one after another. -/
structure InTurn (env : Surroundings (StateM σ)) (p : Pipeline) (w : σ) (log : List Action)
    (s : State σ) : Prop where
  pipeline : s.pipeline =
    Pipeline.run env p (Pipeline.inTurn env p w ((processed log).map Prod.snd))
  world : s.world = Pipeline.worldAfter env p w ((processed log).map Prod.snd)
  outcomes : outcomes log =
    Pipeline.outcomes env p (Pipeline.inTurn env p w ((processed log).map Prod.snd))
  journals : journals log =
    Pipeline.journals env p (Pipeline.inTurn env p w ((processed log).map Prod.snd))

theorem InTurn.keep {env : Surroundings (StateM σ)} {p : Pipeline} {w : σ} {log : List Action}
    {s s' : State σ} {a : Action} (h : InTurn env p w log s) (hprocessed : processed [a] = [])
    (houtcomes : Queueing.outcomes [a] = []) (hjournals : Queueing.journals [a] = [])
    (hpipeline : s'.pipeline = s.pipeline) (hworld : s'.world = s.world) :
    InTurn env p w (log ++ [a]) s' := by
  constructor
  all_goals rw [processed_snoc, hprocessed, List.append_nil]
  · rw [hpipeline, h.pipeline]
  · rw [hworld, h.world]
  · rw [outcomes_snoc, houtcomes, List.append_nil, h.outcomes]
  · rw [journals_snoc, hjournals, List.append_nil, h.journals]

theorem InTurn.step {env : Surroundings (StateM σ)} {p : Pipeline} {w : σ} {log : List Action}
    {s s' : State σ} {a : Action} (h : InTurn env p w log s) (hstep : Step env s a s') :
    InTurn env p w (log ++ [a]) s' := by
  cases hstep with
  | @finish ticket d hstand =>
    have hnew : processed [.finish ticket d ((s.turn d).outcome env s.pipeline)
      ((s.turn d).events env s.pipeline)] = [(ticket, d)] := rfl
    obtain ⟨hpipeline, hworld, houtcomes, hjournals⟩ := h
    constructor
    all_goals rw [processed_snoc, hnew, List.map_append]
    · rw [Pipeline.inTurn_append, Pipeline.run_append, ← hpipeline, ← hworld]
      rfl
    · rw [Pipeline.worldAfter_append, ← hpipeline, ← hworld]
      rfl
    · rw [Pipeline.inTurn_append, Pipeline.outcomes_append, ← hpipeline, ← hworld, ← houtcomes,
        outcomes_snoc]
      rfl
    · rw [Pipeline.inTurn_append, Pipeline.journals_append, ← hpipeline, ← hworld, ← hjournals,
        journals_snoc]
      rfl
  | _ => exact h.keep rfl rfl rfl rfl rfl

theorem inTurn_run {env : Surroundings (StateM σ)} {p : Pipeline} {w : σ} {log : List Action}
    {s : State σ} (h : Run env (.start p w) log s) : InTurn env p w log s := by
  induction h with
  | start => exact ⟨rfl, rfl, rfl, rfl⟩
  | step _ hstep ih => exact ih.step hstep

/-- Whether all that was processed could be counted, but for at most one deployment at the end, and
then the worker is not going on. -/
structure Counted (env : Surroundings (StateM σ)) (p : Pipeline) (w : σ) (s : State σ)
    (counted uncounted : List Deployment) : Prop where
  room : Pipeline.HasRoom env p (Pipeline.inTurn env p w counted)
  last : uncounted = [] ∨ ∃ d, uncounted = [d] ∧
    (Pipeline.outcomes env p (Pipeline.inTurn env p w (counted ++ uncounted))).map
        Pipeline.Outcome.result =
      (Pipeline.outcomes env p (Pipeline.inTurn env p w counted)).map Pipeline.Outcome.result ++
        [.error .exhausted] ∧
    ¬s.pipeline.store.Room ∧ s.stand.isOver = true

theorem Counted.keep {env : Surroundings (StateM σ)} {p : Pipeline} {w : σ} {s s' : State σ}
    {counted uncounted : List Deployment} (h : Counted env p w s counted uncounted)
    (hpipeline : s'.pipeline = s.pipeline)
    (hover : s.stand.isOver = true → s'.stand.isOver = true) :
    Counted env p w s' counted uncounted where
  room := h.room
  last := by
    rcases h.last with hnone | ⟨d, hone, hresult, hfull, hstand⟩
    · exact .inl hnone
    · rw [← hpipeline] at hfull
      exact .inr ⟨d, hone, hresult, hfull, hover hstand⟩

/-- A worker that processes a deployment has counted all before it. -/
theorem Counted.finish {env : Surroundings (StateM σ)} {p : Pipeline} {w : σ} {s s' : State σ}
    {ds : List Deployment} {d : Deployment}
    (hroom : Pipeline.HasRoom env p (Pipeline.inTurn env p w ds))
    (hpipeline : s.pipeline = Pipeline.run env p (Pipeline.inTurn env p w ds))
    (hworld : s.world = Pipeline.worldAfter env p w ds)
    (hnext : s'.pipeline = (s.turn d).next env s.pipeline)
    (hstand : s'.stand = .after ((s.turn d).outcome env s.pipeline)) :
    ∃ counted uncounted, ds ++ [d] = counted ++ uncounted ∧
      Counted env p w s' counted uncounted := by
  have hturns : Pipeline.inTurn env p w (ds ++ [d]) = Pipeline.inTurn env p w ds ++ [s.turn d] := by
    rw [Pipeline.inTurn_append, ← hpipeline, ← hworld]
    rfl
  cases hcounted : ((s.turn d).outcome env s.pipeline).isExhausted with
  | false =>
    refine ⟨ds ++ [d], [], (List.append_nil _).symm, ?_, .inl rfl⟩
    rw [hturns, Pipeline.hasRoom_append_iff, ← hpipeline, Pipeline.hasRoom_singleton]
    exact ⟨hroom, hcounted⟩
  | true =>
    obtain ⟨hresult, hsame, hfull⟩ := Pipeline.stopped_of_isExhausted hcounted
    refine ⟨ds, [d], rfl, hroom, .inr ⟨d, rfl, ?_, ?_, ?_⟩⟩
    · rw [hturns, Pipeline.outcomes_append, List.map_append, ← hpipeline, ← hresult]
      rfl
    · rw [hnext, hsame]
      exact hfull
    · rw [hstand, Stand.after, hcounted]
      rfl

theorem counted_run {env : Surroundings (StateM σ)} {p : Pipeline} {w : σ} {log : List Action}
    {s : State σ} (h : Run env (.start p w) log s) :
    ∃ counted uncounted, (processed log).map Prod.snd = counted ++ uncounted ∧
      Counted env p w s counted uncounted := by
  induction h with
  | start => exact ⟨[], [], rfl, List.forall_mem_nil _, .inl rfl⟩
  | @step log s s' a hrun hstep ih =>
    obtain ⟨counted, uncounted, hsplit, hcounted⟩ := ih
    obtain ⟨hpipeline, hworld, -, -⟩ := inTurn_run hrun
    rw [processed_snoc, List.map_append]
    cases hstep with
    | @finish ticket d hstand =>
      rcases hcounted.last with rfl | ⟨-, -, -, -, hover⟩
      · rw [List.append_nil] at hsplit
        rw [hsplit] at hpipeline hworld ⊢
        exact Counted.finish hcounted.room hpipeline hworld rfl rfl
      · rw [hstand] at hover
        cases hover
    | submit | stop =>
      exact ⟨counted, uncounted, (List.append_nil _).trans hsplit, hcounted.keep rfl id⟩
    | look hstand | leave hstand | wait hstand | take hstand | close hstand | drop hstand =>
      refine ⟨counted, uncounted, (List.append_nil _).trans hsplit, hcounted.keep rfl ?_⟩
      rw [hstand]
      simp [Stand.isOver]

/-! ### Answers -/

def settled (outcome : Pipeline.Outcome) : Except IntakeError Record :=
  outcome.result.mapError fun _ => .dropped

def refused (x : Ticket × Deployment) : Ticket × Except IntakeError Record := (x.1, .error .dropped)

theorem length_outcomes (log : List Action) : (outcomes log).length = (processed log).length := by
  induction log with
  | nil => rfl
  | cons a log ih =>
    cases a with
    | finish => simpa [outcomes, processed] using ih
    | _ => simpa [outcomes, processed] using ih

theorem answers_run {env : Surroundings (StateM σ)} {p : Pipeline} {w : σ} {log : List Action}
    {s : State σ} (h : Run env (.start p w) log s) :
    answers log = ((processed log).map Prod.fst).zip ((outcomes log).map settled) ++
      (dropped log).map refused := by
  induction h with
  | start => rfl
  | @step log s s' a hrun hstep ih =>
    rw [answers_snoc, processed_snoc, outcomes_snoc, dropped_snoc, ih]
    cases hstep with
    | @finish ticket d hstand =>
      have hundropped : dropped log = [] := (placed_run hrun).undropped (by rw [hstand]; nofun)
      have hlength :
          ((processed log).map Prod.fst).length = ((outcomes log).map settled).length := by
        rw [List.length_map, List.length_map, length_outcomes]
      rw [hundropped, List.map_append, List.map_append, List.zip_append hlength]
      simp [answers, processed, outcomes, dropped, settled]
    | drop hstand => simp [answers, processed, outcomes, dropped, refused]
    | _ => simp [answers, processed, outcomes, dropped]

/-! ### Tickets -/

theorem tickets_of_range {n : Nat} {first rest : List (Ticket × Deployment)}
    (h : (first ++ rest).map Prod.fst = List.range n) :
    first.map Prod.fst = List.range first.length := by
  have hlength : first.length ≤ n := by
    have hcount := congrArg List.length h
    rw [List.length_map, List.length_append, List.length_range] at hcount
    omega
  have htake := congrArg (List.take first.length) h
  rw [List.map_append, List.take_left' (List.length_map _), List.take_range] at htake
  rw [htake, Nat.min_eq_left hlength]

section Reached

variable {env : Surroundings (StateM σ)} {p : Pipeline} {w : σ} {log : List Action} {s s' : State σ}

theorem Run.trans {more : List Action} (h : Run env (.start p w) log s)
    (hmore : Run env s more s') : Run env (.start p w) (log ++ more) s' := by
  induction hmore with
  | start => rwa [List.append_nil]
  | step _ hstep ih =>
    rw [← List.append_assoc]
    exact ih.step hstep

theorem tickets_answers (h : Run env (.start p w) log s) :
    (answers log).map Prod.fst = (processed log).map Prod.fst ++ (dropped log).map Prod.fst := by
  have hlength : ((processed log).map Prod.fst).length ≤ ((outcomes log).map settled).length := by
    rw [List.length_map, List.length_map, length_outcomes]
  rw [answers_run h, List.map_append, List.map_fst_zip hlength, List.map_map]
  rfl

/-- Whether the first submissions, a number of them, have been answered. -/
def Answered (n : Nat) (log : List Action) : Prop :=
  ∀ ticket < n, ticket ∈ (answers log).map Prod.fst

theorem Answered.append {n : Nat} (h : Answered n log) (more : List Action) :
    Answered n (log ++ more) := by
  intro ticket hticket
  rw [answers, List.flatMap_append, List.map_append]
  exact List.mem_append_left _ (h ticket hticket)

theorem answered_of_processed (h : Run env (.start p w) log s) :
    Answered (processed log).length log := by
  have hplaced := placed_run h
  have htickets := hplaced.tickets
  rw [hplaced.places, List.append_assoc] at htickets
  intro ticket hticket
  rw [tickets_answers h, tickets_of_range htickets]
  exact List.mem_append_left _ (List.mem_range.2 hticket)

theorem answered_of_stopped (h : Run env (.start p w) log s) (hstand : s.stand = .stopped) :
    (answers log).map Prod.fst = (submitted log).map Prod.fst := by
  have hplaced := placed_run h
  have hnone : s.pending = [] := by
    rw [State.pending, hstand, hplaced.empty hstand]
    rfl
  rw [tickets_answers h, hplaced.places, hnone, List.append_nil, List.map_append]

/-! ### The worker goes on -/

/-- How many steps of the worker it takes at most until the first submissions are answered. -/
def remaining (n : Nat) (s : State σ) : Nat :=
  let taken := s.intake.count - s.intake.waiting.length
  match s.stand with
  | .looking => 3 * (n - taken)
  | .taking => 3 * (n - taken) - 1
  | .working _ _ => 3 * (n - taken) + if taken ≤ n then 1 else 0
  | .leaving => if taken < n then 2 else 0
  | .closing => if taken < n then 1 else 0
  | .stopped => 0

theorem Placed.count_eq (h : Placed log s) (hstand : s.stand ≠ .stopped) :
    s.intake.count =
      (processed log).length + s.stand.inWork.length + s.intake.waiting.length := by
  have hcount := congrArg List.length h.tickets
  rw [List.length_map, h.places, h.undropped hstand, List.length_range] at hcount
  simp only [State.pending, List.length_append, List.length_nil] at hcount
  omega

theorem length_processed_lt {n : Nat} (h : Run env (.start p w) log s) (hnot : ¬Answered n log) :
    (processed log).length < n := by
  by_contra hle
  refine hnot fun ticket hticket => answered_of_processed h ticket ?_
  omega

/-- A step of the worker brings the first answers closer, and no other step defers them. -/
theorem remaining_step {n : Nat} (h : Run env (.start p w) log s) (hn : n ≤ s.intake.count)
    (hnot : ¬Answered n log) {a : Action} (hstep : Step env s a s') :
    remaining n s' + (if a.isWork then 1 else 0) ≤ remaining n s := by
  have hplaced := placed_run h
  have hbehind := length_processed_lt h hnot
  cases hstep with
  | submit d =>
    unfold Intake.submit
    split
    · exact Nat.le_refl _
    · simp [remaining, Action.isWork]
  | stop => exact Nat.le_refl _
  | look hstand =>
    have hcount := hplaced.count_eq (by rw [hstand]; nofun)
    simp only [hstand, Stand.inWork, List.length_nil] at hcount
    simp only [remaining, hstand, Action.isWork, if_true]
    omega
  | leave hstand | close hstand | drop hstand =>
    have hcount := hplaced.count_eq (by rw [hstand]; nofun)
    simp only [hstand, Stand.inWork, List.length_nil] at hcount
    have htaken : s.intake.count - s.intake.waiting.length < n := by omega
    simp only [remaining, hstand, Action.isWork, if_true, if_pos htaken]
    omega
  -- The worker waits only if nothing is left, and then all submissions have been answered.
  | wait hstand hnone =>
    have hcount := hplaced.count_eq (by rw [hstand]; nofun)
    simp only [hstand, hnone, Stand.inWork, List.length_nil] at hcount
    omega
  | take hstand hnext =>
    have hcount := hplaced.count_eq (by rw [hstand]; nofun)
    simp only [hstand, hnext, Stand.inWork, List.length_nil, List.length_cons] at hcount
    simp only [remaining, hstand, hnext, Action.isWork, List.length_cons, if_true]
    split <;> omega
  | @finish ticket d hstand =>
    have hcount := hplaced.count_eq (by rw [hstand]; nofun)
    simp only [hstand, Stand.inWork, List.length_nil, List.length_cons] at hcount
    have htaken : s.intake.count - s.intake.waiting.length ≤ n := by omega
    rcases Stand.after_eq ((s.turn d).outcome env s.pipeline) with hafter | hafter
    all_goals simp only [remaining, hstand, hafter, Action.isWork, if_true, if_pos htaken]
    · omega
    · split <;> omega

theorem remaining_pos {n : Nat} (h : Run env (.start p w) log s) (hn : n ≤ s.intake.count)
    (hnot : ¬Answered n log) : 0 < remaining n s := by
  have hplaced := placed_run h
  have hbehind := length_processed_lt h hnot
  cases hstand : s.stand with
  | looking | taking =>
    have hcount := hplaced.count_eq (by rw [hstand]; nofun)
    simp only [hstand, Stand.inWork, List.length_nil] at hcount
    simp only [remaining, hstand]
    omega
  | working ticket d =>
    have hcount := hplaced.count_eq (by rw [hstand]; nofun)
    simp only [hstand, Stand.inWork, List.length_nil, List.length_cons] at hcount
    simp only [remaining, hstand]
    split <;> omega
  | leaving | closing =>
    have hcount := hplaced.count_eq (by rw [hstand]; nofun)
    simp only [hstand, Stand.inWork, List.length_nil] at hcount
    have htaken : s.intake.count - s.intake.waiting.length < n := by omega
    simp only [remaining, hstand, if_pos htaken]
    omega
  | stopped =>
    refine absurd (fun ticket hticket => ?_) hnot
    rw [answered_of_stopped h hstand, hplaced.tickets, List.mem_range]
    omega

theorem count_le_of_step {a : Action} (hstep : Step env s a s') :
    s.intake.count ≤ s'.intake.count := by
  cases hstep with
  | submit d =>
    unfold Intake.submit
    split
    · exact Nat.le_refl _
    · exact Nat.le_succ _
  | _ => exact Nat.le_refl _

theorem count_le_of_run {more : List Action} (h : Run env s more s') :
    s.intake.count ≤ s'.intake.count := by
  induction h with
  | start => exact Nat.le_refl _
  | step _ hstep ih => exact Nat.le_trans ih (count_le_of_step hstep)

theorem answered_or_remaining {n : Nat} {more : List Action} (h : Run env (.start p w) log s)
    (hn : n ≤ s.intake.count) (hmore : Run env s more s') :
    Answered n (log ++ more) ∨ remaining n s' + workSteps more ≤ remaining n s := by
  induction hmore with
  | start => exact .inr (Nat.le_refl _)
  | @step more s' s'' a hmore hstep ih =>
    by_cases hanswered : Answered n (log ++ more)
    · refine .inl ?_
      rw [← List.append_assoc]
      exact hanswered.append [a]
    · have hless := remaining_step (h.trans hmore) (Nat.le_trans hn (count_le_of_run hmore))
        hanswered hstep
      have hbefore := ih.resolve_left hanswered
      refine .inr ?_
      rw [workSteps, List.countP_append, List.countP_singleton]
      rw [workSteps] at hbefore
      omega

/-- All submissions are answered after some steps of the worker, whatever else happens. -/
theorem answered_of_workSteps {more : List Action} (h : Run env (.start p w) log s)
    (hmore : Run env s more s') (hsteps : 3 * s.intake.waiting.length + 2 ≤ workSteps more) :
    Answered s.intake.count (log ++ more) := by
  by_contra hnot
  have hpos := remaining_pos (h.trans hmore) (count_le_of_run hmore) hnot
  have hless := (answered_or_remaining h (Nat.le_refl _) hmore).resolve_left hnot
  have hbound : remaining s.intake.count s ≤ 3 * s.intake.waiting.length + 2 := by
    unfold remaining
    dsimp only
    split
    · omega
    · omega
    · split <;> omega
    · split <;> omega
    · split <;> omega
    · omega
  omega

/-- The worker never waits for anything but deployments. -/
theorem exists_work (env : Surroundings (StateM σ)) (s : State σ) (h : s.stand ≠ .stopped) :
    ∃ a s', Step env s a s' ∧ a.isWork = true := by
  cases hstand : s.stand with
  | looking =>
    cases hstop : s.intake.stopping with
    | true => exact ⟨_, _, .leave hstand hstop, rfl⟩
    | false => exact ⟨_, _, .look hstand hstop, rfl⟩
  | taking =>
    cases hnext : s.intake.waiting with
    | nil => exact ⟨_, _, .wait hstand hnext, rfl⟩
    | cons next rest => exact ⟨_, _, .take hstand hnext, rfl⟩
  | working ticket d => exact ⟨_, _, .finish hstand, rfl⟩
  | leaving => exact ⟨_, _, .close hstand, rfl⟩
  | closing => exact ⟨_, _, .drop hstand, rfl⟩
  | stopped => exact absurd hstand h

/-! ### After the worker has stopped -/

/-- What still happens when the worker has stopped: submissions are refused. -/
def Action.isLate (a : Action) : Prop := a = .stop ∨ ∃ d, a = .submit d (.error .closed)

theorem step_of_stopped (hstand : s.stand = .stopped) (hclosed : s.intake.closed = true)
    {a : Action} (hstep : Step env s a s') :
    a.isLate ∧ s'.stand = .stopped ∧ s'.intake.closed = true ∧ s'.pipeline = s.pipeline ∧
      s'.world = s.world := by
  cases hstep with
  | submit d =>
    have hsubmit : s.intake.submit d = (.error .closed, s.intake) := by
      rw [Intake.submit, if_pos hclosed]
    rw [hsubmit]
    exact ⟨.inr ⟨d, rfl⟩, hstand, hclosed, rfl, rfl⟩
  | stop => exact ⟨.inl rfl, hstand, hclosed, rfl, rfl⟩
  | look h | leave h | wait h | take h | finish h | close h | drop h =>
    rw [hstand] at h
    cases h

theorem run_of_stopped (hstand : s.stand = .stopped) (hclosed : s.intake.closed = true)
    {more : List Action} (hmore : Run env s more s') :
    (∀ a ∈ more, a.isLate) ∧ s'.stand = .stopped ∧ s'.intake.closed = true ∧
      s'.pipeline = s.pipeline ∧ s'.world = s.world := by
  induction hmore with
  | start => exact ⟨List.forall_mem_nil _, hstand, hclosed, rfl, rfl⟩
  | step _ hstep ih =>
    obtain ⟨hlate, hstand', hclosed', hpipeline, hworld⟩ := ih
    obtain ⟨ha, hstand'', hclosed'', hpipeline', hworld'⟩ := step_of_stopped hstand' hclosed' hstep
    refine ⟨?_, hstand'', hclosed'', hpipeline'.trans hpipeline, hworld'.trans hworld⟩
    exact List.forall_mem_append.2 ⟨hlate, List.forall_mem_singleton.2 ha⟩

/-! ### All together -/

theorem nodup_answers (h : Run env (.start p w) log s) : ((answers log).map Prod.fst).Nodup := by
  have hplaced := placed_run h
  have hsublist : (processed log ++ dropped log).Sublist (submitted log) := by
    rw [hplaced.places]
    exact (List.sublist_append_left _ _).append (List.Sublist.refl _)
  have htickets := hsublist.map Prod.fst
  rw [hplaced.tickets, List.map_append, ← tickets_answers h] at htickets
  exact htickets.nodup List.nodup_range

/-- The results of the processed deployments, and what those who submitted them are told. -/
theorem results_run (h : Run env (.start p w) log s) :
    ∃ counted uncounted records, (processed log).map Prod.snd = counted ++ uncounted ∧
      List.Forall₂ Pipeline.EndOf counted records ∧
      (outcomes log).map Pipeline.Outcome.result =
        records.map .ok ++ uncounted.map (fun _ => .error .exhausted) ∧
      (uncounted = [] ∨
        uncounted.length = 1 ∧ ¬s.pipeline.store.Room ∧ s.stand.isOver = true) := by
  obtain ⟨counted, uncounted, hsplit, hcounted⟩ := counted_run h
  obtain ⟨-, -, houtcomes, -⟩ := inTurn_run h
  obtain ⟨records, hrecords, hown⟩ := Pipeline.exists_records env hcounted.room
  rw [Pipeline.deployment_inTurn] at hown
  rw [hsplit] at houtcomes
  refine ⟨counted, uncounted, records, hsplit, hown, ?_, ?_⟩
  all_goals rcases hcounted.last with rfl | ⟨d, rfl, hresult, hfull, hover⟩
  · rw [houtcomes, List.append_nil, hrecords, List.map_nil, List.append_nil]
  · rw [houtcomes, hresult, hrecords, List.map_singleton]
  · exact .inl rfl
  · exact .inr ⟨rfl, hfull, hover⟩

theorem settled_eq {records : List Record} {uncounted : List Deployment}
    {outcomes : List Pipeline.Outcome}
    (h : outcomes.map Pipeline.Outcome.result =
      records.map .ok ++ uncounted.map (fun _ => .error .exhausted)) :
    outcomes.map settled = records.map .ok ++ uncounted.map fun _ => .error .dropped := by
  have hmapped := congrArg (List.map (Except.mapError fun _ => IntakeError.dropped)) h
  simp only [List.map_append, List.map_map] at hmapped
  exact hmapped

end Reached

/-! ### The worker of an agent -/

/-- Whether a turn of the worker of an agent that has come to the state of the queue is made of
steps of the queue. -/
def WorksAs (env : Surroundings (StateM σ)) (s : State σ) : Prop :=
  ∀ (κ : Type) (agent : Agent κ), agent.intake = s.intake → agent.pipeline = s.pipeline →
    let result := (agent.turn env).run s.world
    ∃ more s', Run env s more s' ∧ s'.intake = result.1.2.intake ∧
      s'.pipeline = result.1.2.pipeline ∧ s'.world = result.2 ∧
      (s'.stand = .looking ∨ s'.stand = .stopped) ∧
      answers more = result.1.1.toList.map (fun done => (done.1, settled done.2)) ++
        (dropped more).map refused

theorem worksAs (env : Surroundings (StateM σ)) {s : State σ} (hlooking : s.stand = .looking) :
    WorksAs env s := by
  intro κ agent hintake hpipeline
  obtain ⟨intake, stand, pipeline, w⟩ := s
  cases hlooking
  cases hintake
  cases hpipeline
  intro result
  have hresult : (agent.turn env).run w = result := rfl
  cases hstop : agent.intake.stopping with
  | true =>
    have htake : agent.intake.take = (none, agent.intake.close) := by
      rw [Intake.take, if_pos hstop]
    have hturn : (agent.turn env).run w =
        ((none, { agent with intake := agent.intake.close }), w) := by
      unfold Agent.turn
      rw [htake]
      rfl
    rw [← hresult, hturn]
    refine ⟨_, _, ((Run.start.step (.leave rfl hstop)).step (.close rfl)).step (.drop rfl), rfl,
      rfl, rfl, .inr rfl, ?_⟩
    simp [answers, dropped, refused]
  | false =>
    cases hwaiting : agent.intake.waiting with
    | nil =>
      rw [← hresult, Pipeline.run_turn_none env hstop hwaiting]
      exact ⟨_, _, (Run.start.step (.look rfl hstop)).step (.wait rfl hwaiting), rfl, rfl, rfl,
        .inl rfl, rfl⟩
    | cons next rest =>
      obtain ⟨ticket, d⟩ := next
      have hturn := Pipeline.run_turn_some env hstop hwaiting w
      have hstart : Run env ⟨agent.intake, .looking, agent.pipeline, w⟩ []
        ⟨agent.intake, .looking, agent.pipeline, w⟩ := .start
      have hdone := ((hstart.step (.look rfl hstop)).step (.take rfl hwaiting)).step (.finish rfl)
      cases hcounted : (Pipeline.Turn.outcome env agent.pipeline ⟨d, w⟩).isExhausted with
      | false =>
        simp only [hcounted] at hturn
        rw [← hresult, hturn]
        exact ⟨_, _, hdone, rfl, rfl, rfl, .inl (by simp [Stand.after, State.turn, hcounted]), rfl⟩
      | true =>
        simp only [hcounted] at hturn
        rw [← hresult, hturn]
        have hleft : Stand.after (Pipeline.Turn.outcome env agent.pipeline ⟨d, w⟩) = .leaving := by
          rw [Stand.after, hcounted]
          rfl
        refine ⟨_, _, (hdone.step (.close hleft)).step (.drop rfl), rfl, rfl, rfl, .inr rfl, ?_⟩
        simp [answers, dropped, refused, settled, State.turn]

/-! ### All together -/

/-- In every interleaving of submissions, requests to stop and steps of the worker:

* What was processed comes first among what was submitted, in the same order; the rest is in work,
  waits or was dropped.
* The pipeline, the outcomes and all that was asked of the surroundings, plans and states to save,
  are those of processing the same deployments in a row and nothing else.
* Those who submitted are answered at most once: with the record of their own deployment, which has
  ended, if it was processed, and else with the error for one that was dropped.  They get this
  error, too, where the acceptance could not be counted.  There is at most one such deployment, the
  last one that was taken, on a worker that takes no other.
* All of them have been answered when the worker has stopped, and also after some steps of the
  worker, which can always go on until then.
* When the worker has stopped, a submission is refused and nothing is processed any more.
* A turn of the worker of an agent is made of these steps. -/
theorem queue_keeps_order (env : Surroundings (StateM σ)) (p : Pipeline) (w : σ) {log : List Action}
    {s : State σ} (h : Run env (.start p w) log s) :
    let ds := (processed log).map Prod.snd
    let turns := Pipeline.inTurn env p w ds
    (processed log <+: submitted log ∧
      submitted log = processed log ++ s.pending ++ dropped log) ∧
    (s.pipeline = Pipeline.run env p turns ∧ s.world = Pipeline.worldAfter env p w ds ∧
      outcomes log = Pipeline.outcomes env p turns ∧
      journals log = Pipeline.journals env p turns) ∧
    ((submitted log).map Prod.fst = List.range s.intake.count ∧
      ((answers log).map Prod.fst).Nodup ∧
      ∃ counted uncounted records, ds = counted ++ uncounted ∧
        List.Forall₂ Pipeline.EndOf counted records ∧
        (outcomes log).map Pipeline.Outcome.result =
          records.map .ok ++ uncounted.map (fun _ => .error .exhausted) ∧
        answers log = ((processed log).map Prod.fst).zip
            (records.map .ok ++ uncounted.map fun _ => .error .dropped) ++
          (dropped log).map refused ∧
        (uncounted = [] ∨
          uncounted.length = 1 ∧ ¬s.pipeline.store.Room ∧ s.stand.isOver = true)) ∧
    ((s.stand = .stopped → (answers log).map Prod.fst = (submitted log).map Prod.fst) ∧
      (∀ more s', Run env s more s' → 3 * s.intake.waiting.length + 2 ≤ workSteps more →
        ∀ ticket ∈ (submitted log).map Prod.fst, ticket ∈ (answers (log ++ more)).map Prod.fst) ∧
      (s.stand ≠ .stopped → ∃ a s', Step env s a s' ∧ a.isWork = true)) ∧
    (s.stand = .stopped →
      (∀ d, s.intake.submit d = (.error .closed, s.intake)) ∧
      ∀ more s', Run env s more s' → (∀ a ∈ more, a.isLate) ∧ s'.stand = .stopped ∧
        s'.pipeline = s.pipeline ∧ s'.world = s.world) ∧
    (s.stand = .looking → WorksAs env s) := by
  intro ds turns
  have hplaced := placed_run h
  obtain ⟨hpipeline, hworld, houtcomes, hjournals⟩ := inTurn_run h
  refine ⟨⟨?_, hplaced.places⟩, ⟨hpipeline, hworld, houtcomes, hjournals⟩,
    ⟨hplaced.tickets, nodup_answers h, ?_⟩, ⟨answered_of_stopped h, ?_, exists_work env s⟩, ?_,
    worksAs env⟩
  · rw [hplaced.places, List.append_assoc]
    exact List.prefix_append _ _
  · obtain ⟨counted, uncounted, records, hsplit, hown, hresults, hlast⟩ := results_run h
    refine ⟨counted, uncounted, records, hsplit, hown, hresults, ?_, hlast⟩
    rw [answers_run h, settled_eq hresults]
  · intro more s' hmore hsteps ticket hticket
    rw [hplaced.tickets, List.mem_range] at hticket
    exact answered_of_workSteps h hmore hsteps ticket hticket
  · intro hstand
    have hclosed := hplaced.closed.2 (.inr hstand)
    refine ⟨fun d => ?_, fun more s' hmore => ?_⟩
    · rw [Intake.submit, if_pos hclosed]
    · obtain ⟨hlate, hstand', -, hsame⟩ := run_of_stopped hstand hclosed hmore
      exact ⟨hlate, hstand', hsame⟩

/-- Two submissions, of which the second comes after a stop was asked for. -/
theorem queue_drops_second :
    let env := Pipeline.quiet (.ofList ["thinggroup/a"])
    let p := Pipeline.start ⟨.empty, true⟩ .empty (.ofList ["thinggroup/a"])
    let d : Deployment := ⟨.jobs, .document (Pipeline.bare "d1" "thinggroup/a" 1)⟩
    let d' : Deployment := ⟨.jobs, .document (Pipeline.bare "d2" "thinggroup/a" 2)⟩
    ∃ log s, Run env (.start p ()) log s ∧ s.stand = .stopped ∧
      (∃ r, Pipeline.EndOf d r ∧ answers log = [(0, .ok r), (1, .error .dropped)]) ∧
      s.intake.submit d' = (.error .closed, s.intake) := by
  intro env p d d'
  have hsubmit : Step env (State.start p ()) _ _ := .submit _ d
  have hsubmitted := Run.start.step hsubmit
  have htaken := (hsubmitted.step (.look rfl rfl)).step (.take rfl rfl)
  have hrefused := (htaken.step (.stop _)).step (.submit _ d')
  have hleft := (hrefused.step (.finish rfl)).step (.leave (by decide +kernel) rfl)
  have hstopped := (hleft.step (.close rfl)).step (.drop rfl)
  obtain ⟨-, -, ⟨-, -, counted, uncounted, records, hsplit, hown, -, hanswers, hlast⟩, -,
    hlate, -⟩ := queue_keeps_order env p () hstopped
  refine ⟨_, _, hstopped, rfl, ?_, (hlate rfl).1 d'⟩
  have hcounted : uncounted = [] := by
    rcases hlast with hnone | ⟨-, hfull, -⟩
    · exact hnone
    · exact absurd (by decide +kernel) hfull
  subst hcounted
  cases (List.append_nil counted).symm.trans hsplit.symm
  cases hown with
  | cons hr hnone =>
    cases hnone
    exact ⟨_, hr, hanswers⟩

end Rollout.Queueing
