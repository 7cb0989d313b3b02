import Rollout.Proofs.Comparison

/-!
# A journal of a deployment

The pipeline asks its surroundings for the groups of the device, has them save states and has them
carry out plans.  `Surroundings.watched` notes all of this down, in a journal beside the world.
Keeping a journal changes nothing: `process_watched` says that a deployment has the same outcome
with and without it, and that its journal is the history of the world meanwhile.
-/

namespace Rollout

/-- What the pipeline asks of its surroundings, with the answer that it gets. -/
inductive Event where
  | groups (answer : NameSet)
  | save (state : Snapshot) (answer : Except Snapshot.SaveError Unit)
  | apply (plan : Plan) (answer : Except ApplyFailure Unit)

variable {σ α β : Type}

/-- An action whose answer is noted down. -/
def noting (note : α → Event) (x : StateM σ α) : StateM (σ × List Event) α := fun u =>
  ((x.run u.1).1, ((x.run u.1).2, u.2 ++ [note (x.run u.1).1]))

def Surroundings.watched (env : Surroundings (StateM σ)) :
    Surroundings (StateM (σ × List Event)) where
  now := fun u => ((env.now.run u.1).1, ((env.now.run u.1).2, u.2))
  groups := noting .groups env.groups
  save s := noting (.save s) (env.save s)
  apply plan := noting (.apply plan) (env.apply plan)

/-! ### What is noted down -/

section Watched

variable {env : Surroundings (StateM σ)} {w w' : σ}

theorem watched_groups {groups : NameSet} (h : env.groups.run w = (groups, w'))
    (log : List Event) :
    env.watched.groups.run (w, log) = (groups, (w', log ++ [.groups groups])) := by
  have hnote : env.watched.groups.run (w, log) =
      ((env.groups.run w).1, ((env.groups.run w).2, log ++ [.groups (env.groups.run w).1])) := rfl
  rw [hnote, h]

theorem watched_save {state : Snapshot} {answer : Except Snapshot.SaveError Unit}
    (h : (env.save state).run w = (answer, w')) (log : List Event) :
    (env.watched.save state).run (w, log) = (answer, (w', log ++ [.save state answer])) := by
  have hnote : (env.watched.save state).run (w, log) =
      (((env.save state).run w).1,
        (((env.save state).run w).2, log ++ [.save state ((env.save state).run w).1])) := rfl
  rw [hnote, h]

theorem watched_apply {plan : Plan} {answer : Except ApplyFailure Unit}
    (h : (env.apply plan).run w = (answer, w')) (log : List Event) :
    (env.watched.apply plan).run (w, log) = (answer, (w', log ++ [.apply plan answer])) := by
  have hnote : (env.watched.apply plan).run (w, log) =
      (((env.apply plan).run w).1,
        (((env.apply plan).run w).2, log ++ [.apply plan ((env.apply plan).run w).1])) := rfl
  rw [hnote, h]

end Watched

/-- Whether an entry is an answer that the surroundings give in some world. -/
def Event.Genuine (env : Surroundings (StateM σ)) : Event → Prop
  | groups answer => ∃ w, (env.groups.run w).1 = answer
  | save state answer => ∃ w, ((env.save state).run w).1 = answer
  | apply plan answer => ∃ w, ((env.apply plan).run w).1 = answer

/-! ### The history of a world -/

/-- Whether a world has come out of another one through some answers of the surroundings. -/
inductive History (env : Surroundings (StateM σ)) : σ → List Event → σ → Prop
  | start (w : σ) : History env w [] w
  | now {w w' : σ} {log : List Event} (h : History env w log w') :
    History env w log (env.now.run w').2
  | groups {w w' : σ} {log : List Event} (h : History env w log w') :
    History env w (log ++ [.groups (env.groups.run w').1]) (env.groups.run w').2
  | save {w w' : σ} {log : List Event} (h : History env w log w') (state : Snapshot) :
    History env w (log ++ [.save state ((env.save state).run w').1]) ((env.save state).run w').2
  | apply {w w' : σ} {log : List Event} (h : History env w log w') (plan : Plan) :
    History env w (log ++ [.apply plan ((env.apply plan).run w').1]) ((env.apply plan).run w').2

namespace History

variable {env : Surroundings (StateM σ)} {w w' w'' : σ} {log more : List Event}

theorem trans (h : History env w log w') (h' : History env w' more w'') :
    History env w (log ++ more) w'' := by
  induction h' with
  | start => rwa [List.append_nil]
  | now _ ih => exact ih.now
  | groups _ ih => rw [← List.append_assoc]; exact ih.groups
  | save _ state ih => rw [← List.append_assoc]; exact ih.save state
  | apply _ plan ih => rw [← List.append_assoc]; exact ih.apply plan

theorem genuine (h : History env w log w') : ∀ e ∈ log, Event.Genuine env e := by
  induction h with
  | start => exact List.forall_mem_nil _
  | now _ ih => exact ih
  | @groups w' _ _ ih => exact List.forall_mem_append.2 ⟨ih, List.forall_mem_singleton.2 ⟨w', rfl⟩⟩
  | @save w' _ _ _ ih => exact List.forall_mem_append.2 ⟨ih, List.forall_mem_singleton.2 ⟨w', rfl⟩⟩
  | @apply w' _ _ _ ih =>
    exact List.forall_mem_append.2 ⟨ih, List.forall_mem_singleton.2 ⟨w', rfl⟩⟩

end History

namespace Pipeline

/-! ### A deployment with a journal and without one -/

variable (env : Surroundings (StateM σ))

/-- An action compares with one that keeps a journal if it leads to the same world and the journal
is continued by the history of that world. -/
def keepingJournal : Comparison (StateM σ) (StateM (σ × List Event)) where
  Rel R x y := ∀ w log, ∃ more, History env w more (x.run w).2 ∧
    R (x.run w).1 (y.run (w, log)).1 ∧ (y.run (w, log)).2 = ((x.run w).2, log ++ more)
  ofPure h w log := ⟨[], .start w, h, by rw [List.append_nil]; rfl⟩
  ofBind {_ _ _ _ _ _ x y f g} h hnext w log := by
    obtain ⟨more, hmore, hR, hworld⟩ := h w log
    obtain ⟨rest, hrest, hS, hworld'⟩ := hnext _ _ hR (x.run w).2 (log ++ more)
    rw [← hworld] at hS hworld'
    refine ⟨more ++ rest, hmore.trans hrest, hS, ?_⟩
    rw [← List.append_assoc]
    exact hworld'

theorem agrees_watched : (keepingJournal env).Agrees env env.watched where
  now w log := ⟨[], .now (.start w), rfl, by rw [List.append_nil]; rfl⟩
  groups w _ := ⟨_, .groups (.start w), rfl, rfl⟩
  save state w _ := ⟨_, .save (.start w) state, rfl, rfl⟩
  apply plan w _ := ⟨_, .apply (.start w) plan, rfl, rfl⟩

/-- A deployment takes the same course with a journal, which goes on with the history of the world
during the deployment. -/
theorem process_watched (deployment : Deployment) (p : Pipeline) (w : σ) (log : List Event) :
    ∃ more, History env w more ((process env deployment p).run w).2 ∧
      (process env.watched deployment p).run (w, log) =
        (((process env deployment p).run w).1,
          (((process env deployment p).run w).2, log ++ more)) := by
  obtain ⟨more, hmore, hsame, hworld⟩ :=
    Comparison.rel_process (f := id) (agrees_watched env) rfl rfl rfl p w log
  rw [Outcome.renamed_id] at hsame
  exact ⟨more, hmore, Prod.ext hsame hworld⟩

end Pipeline
end Rollout
