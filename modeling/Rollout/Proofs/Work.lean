import Rollout.Pipeline

/-!
# Running actions on a world

An action of the pipeline is a function of the progress of a deployment and of the state of the
surroundings, the world.  `exec` is this function.  The lemmas below say what it does on the parts
that actions are built from, and on the steps of a deployment that have no answer to look at.
-/

namespace Rollout.Pipeline

variable {σ α β : Type}

/-- What an action makes of the progress of a deployment and of the world. -/
def exec (x : Work (StateM σ) α) (q : Progress) (w : σ) : (Except Halt α × Progress) × σ :=
  (x.run.run q).run w

/-! ### Parts of actions -/

theorem exec_bind (x : Work (StateM σ) α) (f : α → Work (StateM σ) β) (q : Progress) (w : σ) :
    exec (x >>= f) q w =
      match exec x q w with
      | ((.ok a, q'), w') => exec (f a) q' w'
      | ((.error e, q'), w') => ((.error e, q'), w') := by
  simp only [exec, ExceptT.run_bind, StateT.run_bind]
  rcases (x.run.run q).run w with ⟨⟨r, q'⟩, w'⟩
  cases r with
  | ok a => rfl
  | error e => rfl

theorem exec_bind_ok {x : Work (StateM σ) α} {f : α → Work (StateM σ) β} {q q' : Progress}
    {w w' : σ} {a : α} (h : exec x q w = ((.ok a, q'), w')) :
    exec (x >>= f) q w = exec (f a) q' w' := by
  rw [exec_bind, h]

theorem exec_bind_error {x : Work (StateM σ) α} {f : α → Work (StateM σ) β} {q q' : Progress}
    {w w' : σ} {e : Halt} (h : exec x q w = ((.error e, q'), w')) :
    exec (x >>= f) q w = ((.error e, q'), w') := by
  rw [exec_bind, h]

theorem exec_tryCatch (x : Work (StateM σ) α) (f : Halt → Work (StateM σ) α) (q : Progress)
    (w : σ) :
    exec (tryCatch x f) q w =
      match exec x q w with
      | ((.ok a, q'), w') => ((.ok a, q'), w')
      | ((.error e, q'), w') => exec (f e) q' w' := by
  have hrun : exec (tryCatch x f) q w =
      (StateT.run (StateT.run (ExceptT.tryCatch x f) q) w : Id _) := rfl
  rw [hrun]
  simp only [ExceptT.tryCatch, ExceptT.mk, StateT.run_bind]
  have hx : (StateT.run (StateT.run x q) w : Id _) = exec x q w := rfl
  rw [hx]
  rcases exec x q w with ⟨⟨r, q'⟩, w'⟩
  cases r with
  | ok a => rfl
  | error e => rfl

@[simp] theorem exec_pure (a : α) (q : Progress) (w : σ) :
    exec (pure a : Work (StateM σ) α) q w = ((.ok a, q), w) := rfl

@[simp] theorem exec_throw (e : Halt) (q : Progress) (w : σ) :
    exec (throw e : Work (StateM σ) α) q w = ((.error e, q), w) := rfl

@[simp] theorem exec_get (q : Progress) (w : σ) :
    exec (get : Work (StateM σ) Progress) q w = ((.ok q, q), w) := rfl

@[simp] theorem exec_set (next q : Progress) (w : σ) :
    exec (set next : Work (StateM σ) PUnit) q w = ((.ok ⟨⟩, next), w) := rfl

@[simp] theorem exec_ask (action : StateM σ α) (q : Progress) (w : σ) :
    exec (ask action) q w = ((.ok (action.run w).1, q), (action.run w).2) := rfl

theorem exec_ask_of_run {action : StateM σ α} {a : α} {w w' : σ} (h : action.run w = (a, w'))
    (q : Progress) : exec (ask action) q w = ((.ok a, q), w') := by
  rw [exec_ask, h]

@[simp] theorem exec_amend (change : Record → Record) (q : Progress) (w : σ) :
    exec (amend change : Work (StateM σ) Unit) q w =
      ((.ok (), { q with record := change q.record }), w) := rfl

theorem exec_orFail_of_ok {r : Except Failure α} {a : α} (h : r = .ok a) (q : Progress) (w : σ) :
    exec (orFail r : Work (StateM σ) α) q w = ((.ok a, q), w) := by
  rw [h]
  rfl

theorem exec_orFail_of_error {r : Except Failure α} {failure : Failure} (h : r = .error failure)
    (q : Progress) (w : σ) :
    exec (orFail r : Work (StateM σ) α) q w = ((.error (.failed failure), q), w) := by
  rw [h]
  rfl

/-! ### Steps of a deployment -/

variable (env : Surroundings (StateM σ))

def Progress.entered (q : Progress) (stage : Stage) (now : Calendar.Instant) : Progress :=
  { q with
    record := { q.record with stage := stage, history := q.record.history ++ [(stage, now)] } }

theorem exec_enter {stage : Stage} {q : Progress} (h : q.record.stage.canBecome stage = true)
    (w : σ) :
    exec (enter env stage) q w =
      ((.ok (), q.entered stage (env.now.run w).1), (env.now.run w).2) := by
  unfold enter
  rw [exec_bind_ok (exec_ask env.now q w), exec_bind_ok (exec_get q _)]
  simp only [Record.advance, h, if_true, exec_amend]
  rfl

theorem exec_report (q : Progress) (w : σ) :
    exec (report env) q w =
      ((.ok (), { q with reports := q.reports ++ [.ofRecord (env.now.run w).1 q.record] }),
        (env.now.run w).2) := rfl

def Progress.failed (q : Progress) (failure : Failure) (now : Calendar.Instant) : Progress :=
  { q with record := (q.entered failure.finalStage now).record.note failure }

theorem exec_fail {failure : Failure} {q : Progress}
    (h : q.record.stage.canBecome failure.finalStage = true) (w : σ) :
    exec (fail env failure) q w =
      ((.ok (), q.failed failure (env.now.run w).1), (env.now.run w).2) := by
  unfold fail
  rw [exec_bind_ok (exec_ask env.now q w), exec_bind_ok (exec_get q _)]
  simp only [Record.failWith, Record.advance, h, if_true, Except.map, exec_amend]
  rfl

end Rollout.Pipeline
