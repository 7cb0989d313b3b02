import Rollout.Pipeline

/-!
# Comparing what devices do

A `Comparison` relates actions of two monads.  If two devices give comparable answers to everything
that the pipeline asks, then what it makes of a deployment compares as well
(`Comparison.rel_process`).  The two may know the deployment under different names: its name is
passed on, but nothing is ever decided by it.
-/

namespace Rollout

/-! ### Names of deployments -/

def Record.renamed (f : String → String) (r : Record) : Record :=
  { r with deployment := f r.deployment }

def Report.renamed (f : String → String) (r : Report) : Report :=
  { r with deployment := f r.deployment }

theorem Record.renamed_advance (f : String → String) (r : Record) (now : Calendar.Instant)
    (stage : Stage) :
    (r.renamed f).advance now stage = (r.advance now stage).map (Record.renamed f) := by
  unfold advance
  have hstage : (r.renamed f).stage = r.stage := rfl
  rw [hstage]
  split <;> rfl

theorem Record.renamed_failWith (f : String → String) (r : Record) (now : Calendar.Instant)
    (failure : Failure) :
    (r.renamed f).failWith now failure = (r.failWith now failure).map (Record.renamed f) := by
  unfold failWith
  rw [renamed_advance]
  cases r.advance now failure.finalStage <;> rfl

namespace Pipeline

def Progress.renamed (f : String → String) (q : Progress) : Progress :=
  { q with record := q.record.renamed f, reports := q.reports.map (Report.renamed f) }

def Outcome.renamed (f : String → String) (o : Outcome) : Outcome where
  result := o.result.map (Record.renamed f)
  reports := o.reports.map (Report.renamed f)

@[simp] theorem Outcome.renamed_id (o : Outcome) : o.renamed id = o := by
  obtain ⟨result, reports⟩ := o
  have hreports : reports.map (Report.renamed id) = reports := List.map_id reports
  have hresult : result.map (Record.renamed id) = result := by
    cases result <;> rfl
  rw [renamed, hreports, hresult]

theorem Outcome.ofWork_renamed (f : String → String) (result : Except Halt Unit) (q : Progress) :
    ofWork result (q.renamed f) = (ofWork result q).renamed f := by
  cases result with
  | ok _ => rfl
  | error e => cases e <;> rfl

/-! ### Comparable actions -/

/-- A way to compare actions of two monads, given how their results compare. -/
structure Comparison (m n : Type → Type) [Monad m] [Monad n] where
  Rel : {α β : Type} → (α → β → Prop) → m α → n β → Prop
  ofPure : ∀ {α β : Type} {R : α → β → Prop} {a : α} {b : β}, R a b → Rel R (pure a) (pure b)
  ofBind : ∀ {α β γ δ : Type} {R : α → β → Prop} {S : γ → δ → Prop} {x : m α} {y : n β}
    {f : α → m γ} {g : β → n δ},
    Rel R x y → (∀ a b, R a b → Rel S (f a) (g b)) → Rel S (x >>= f) (y >>= g)

namespace Comparison

variable {m n : Type → Type} [Monad m] [Monad n] (C : Comparison m n)

/-- Whether two devices give comparable answers. -/
structure Agrees (env : Surroundings m) (env' : Surroundings n) : Prop where
  now : C.Rel Eq env.now env'.now
  groups : C.Rel Eq env.groups env'.groups
  save : ∀ state, C.Rel Eq (env.save state) (env'.save state)
  apply : ∀ plan, C.Rel Eq (env.apply plan) (env'.apply plan)

variable {C} {env : Surroundings m} {env' : Surroundings n}

theorem rel_bind {α γ δ : Type} {S : γ → δ → Prop} {x : m α} {y : n α} {f : α → m γ} {g : α → n δ}
    (h : C.Rel Eq x y) (hnext : ∀ a, C.Rel S (f a) (g a)) : C.Rel S (x >>= f) (y >>= g) := by
  refine C.ofBind h ?_
  rintro a _ rfl
  exact hnext a

section Stores

variable (hagrees : C.Agrees env env')

include hagrees

theorem rel_advance {α : Type} (s next : Store) (result : α) :
    C.Rel Eq (Store.advance env.save s next result) (Store.advance env'.save s next result) := by
  refine rel_bind (hagrees.save _) ?_
  rintro (e | _) <;> exact C.ofPure rfl

theorem rel_replace (s : Store) (scope : Scope) (w : Winner) :
    C.Rel Eq (s.replace env.save scope w) (s.replace env'.save scope w) := by
  have hchange : C.Rel Eq
      (do
        let r ← Store.advance env.save s (s.accept scope w) (s.seat scope w)
        return (r.1.mapError Store.ReplaceError.unsaved, r.2))
      (do
        let r ← Store.advance env'.save s (s.accept scope w) (s.seat scope w)
        return (r.1.mapError Store.ReplaceError.unsaved, r.2)) :=
    rel_bind (rel_advance hagrees _ _ _) fun _ => C.ofPure rfl
  unfold Store.replace
  by_cases hroom : s.Room
  · simp only [hroom, if_true]
    cases s.winner? scope with
    | none => exact hchange
    | some current =>
      dsimp only
      split
      · exact C.ofPure rfl
      · exact hchange
  · simp only [hroom, if_false]
    cases s.winner? scope with
    | none => exact C.ofPure rfl
    | some current =>
      dsimp only
      split <;> exact C.ofPure rfl

theorem rel_retain (s : Store) (keep : Scope → Bool) :
    C.Rel Eq (s.retain env.save keep) (s.retain env'.save keep) := by
  unfold Store.retain
  dsimp only
  split
  · exact C.ofPure rfl
  · exact rel_advance hagrees _ _ _

end Stores

/-! ### Comparable work -/

inductive SameResult {α β : Type} (R : α → β → Prop) : Except Halt α → Except Halt β → Prop
  | ok {a : α} {b : β} (h : R a b) : SameResult R (.ok a) (.ok b)
  | error (e : Halt) : SameResult R (.error e) (.error e)

/-- Whether work has come to the same point, up to the name of the deployment. -/
def SamePoint (f : String → String) {α β : Type} (R : α → β → Prop)
    (r : Except Halt α × Progress) (r' : Except Halt β × Progress) : Prop :=
  SameResult R r.1 r'.1 ∧ r'.2 = r.2.renamed f

variable (C) in
/-- Whether work on a deployment compares with work on the same deployment under another name. -/
def Works (f : String → String) {α β : Type} (R : α → β → Prop) (x : Work m α) (y : Work n β) :
    Prop :=
  ∀ q, C.Rel (SamePoint f R) (x.run.run q) (y.run.run (q.renamed f))

section Parts

variable {f : String → String} {α β γ δ : Type} {R : α → β → Prop} {S : γ → δ → Prop}

theorem works_pure {a : α} {b : β} (h : R a b) :
    C.Works f R (pure a : Work m α) (pure b : Work n β) :=
  fun _ => C.ofPure ⟨.ok h, rfl⟩

theorem works_throw (e : Halt) : C.Works f R (throw e : Work m α) (throw e : Work n β) :=
  fun _ => C.ofPure ⟨.error e, rfl⟩

theorem works_bind {x : Work m α} {y : Work n β} {g : α → Work m γ} {h : β → Work n δ}
    (hfirst : C.Works f R x y) (hnext : ∀ a b, R a b → C.Works f S (g a) (h b)) :
    C.Works f S (x >>= g) (y >>= h) := by
  intro q
  refine C.ofBind (hfirst q) ?_
  rintro ⟨r, q₁⟩ ⟨r', _⟩ ⟨hresult, rfl⟩
  cases hresult with
  | ok hab => exact hnext _ _ hab q₁
  | error e => exact C.ofPure ⟨.error e, rfl⟩

theorem works_tryCatch {x : Work m α} {y : Work n β} {g : Halt → Work m α} {h : Halt → Work n β}
    (hfirst : C.Works f R x y) (hnext : ∀ e, C.Works f R (g e) (h e)) :
    C.Works f R (tryCatch x g) (tryCatch y h) := by
  intro q
  refine C.ofBind (hfirst q) ?_
  rintro ⟨r, q₁⟩ ⟨r', _⟩ ⟨hresult, rfl⟩
  cases hresult with
  | ok hab => exact C.ofPure ⟨.ok hab, rfl⟩
  | error e => exact hnext e q₁

theorem works_lift {x : StateT Progress m α} {y : StateT Progress n β}
    (h : ∀ q, C.Rel (fun r r' => R r.1 r'.1 ∧ r'.2 = r.2.renamed f) (x.run q)
      (y.run (q.renamed f))) :
    C.Works f R (ExceptT.lift x) (ExceptT.lift y) := by
  intro q
  refine C.ofBind (h q) ?_
  rintro ⟨a, q₁⟩ ⟨b, _⟩ ⟨hab, rfl⟩
  exact C.ofPure ⟨.ok hab, rfl⟩

theorem works_ask {x : m α} {y : n β} (h : C.Rel R x y) : C.Works f R (ask x) (ask y) :=
  works_lift fun _ => C.ofBind h fun _ _ hab => C.ofPure ⟨hab, rfl⟩

theorem works_modify {change change' : Progress → Progress}
    (h : ∀ q, change' (q.renamed f) = (change q).renamed f) :
    C.Works f Eq (modify change : Work m PUnit) (modify change' : Work n PUnit) :=
  works_lift fun q => C.ofPure ⟨rfl, h q⟩

theorem works_set {q q' : Progress} (h : q' = q.renamed f) :
    C.Works f Eq (set q : Work m PUnit) (set q' : Work n PUnit) :=
  works_lift fun _ => C.ofPure ⟨rfl, h⟩

theorem works_get {g : Progress → Work m γ} {h : Progress → Work n δ}
    (hnext : ∀ q, C.Works f S (g q) (h (q.renamed f))) : C.Works f S (get >>= g) (get >>= h) := by
  refine works_bind (R := fun q q' => q' = q.renamed f) ?_ ?_
  · exact works_lift fun _ => C.ofPure ⟨rfl, rfl⟩
  · rintro q _ rfl
    exact hnext q

theorem works_bind_eq {x : Work m α} {y : Work n α} {g : α → Work m γ} {h : α → Work n δ}
    (hfirst : C.Works f Eq x y) (hnext : ∀ a, C.Works f S (g a) (h a)) :
    C.Works f S (x >>= g) (y >>= h) := by
  refine works_bind hfirst ?_
  rintro a _ rfl
  exact hnext a

theorem works_orFail (r : Except Failure α) :
    C.Works f Eq (orFail r : Work m α) (orFail r : Work n α) := by
  cases r with
  | ok a => exact works_pure rfl
  | error e => exact works_throw _

theorem works_amend {change : Record → Record}
    (h : ∀ r : Record, change (r.renamed f) = (change r).renamed f) :
    C.Works f Eq (amend change : Work m Unit) (amend change : Work n Unit) := by
  refine works_modify fun q => ?_
  have hrecord : change (q.renamed f).record = (change q.record).renamed f := h q.record
  simp only [hrecord]
  rfl

end Parts

/-! ### Comparable steps of a deployment -/

section Steps

variable {f : String → String} (hagrees : C.Agrees env env')

include hagrees

theorem works_enter (stage : Stage) : C.Works f Eq (enter env stage) (enter env' stage) := by
  refine works_bind_eq (works_ask hagrees.now) fun now => ?_
  refine works_get fun q => ?_
  have hrecord : (q.renamed f).record.advance now stage = _ := q.record.renamed_advance f now stage
  rw [hrecord]
  cases q.record.advance now stage with
  | ok r => exact works_modify fun _ => rfl
  | error e => exact works_throw _

theorem works_fail (failure : Failure) : C.Works f Eq (fail env failure) (fail env' failure) := by
  refine works_bind_eq (works_ask hagrees.now) fun now => ?_
  refine works_get fun q => ?_
  have hrecord : (q.renamed f).record.failWith now failure = _ :=
    q.record.renamed_failWith f now failure
  rw [hrecord]
  cases q.record.failWith now failure with
  | ok r => exact works_modify fun _ => rfl
  | error e => exact works_throw _

theorem works_report : C.Works f Eq (report env) (report env') := by
  refine works_bind_eq (works_ask hagrees.now) fun now => ?_
  refine works_modify fun q => ?_
  simp only [Progress.renamed, List.map_append]
  rfl

theorem works_commit (scope : Scope) (d : Document) :
    C.Works f Eq (commit env scope d) (commit env' scope d) := by
  refine works_get fun q => ?_
  refine works_bind_eq (works_ask (rel_replace hagrees _ _ _)) fun r => ?_
  refine works_bind_eq (works_set rfl) fun _ => ?_
  cases r.1 with
  | ok w => exact works_pure rfl
  | error e => cases e <;> exact works_throw _

theorem works_prune (scope : Scope) : C.Works f Eq (prune env scope) (prune env' scope) := by
  refine works_bind_eq (works_ask hagrees.groups) fun groups => ?_
  refine works_get fun q => ?_
  have hpipeline : (q.renamed f).pipeline = q.pipeline := rfl
  dsimp only
  rw [hpipeline]
  split
  · exact works_set rfl
  · refine works_bind_eq (works_ask (rel_retain hagrees _ _)) fun r => ?_
    cases r.1 with
    | ok w => exact works_set rfl
    | error e => exact works_set rfl

theorem works_groupsFor (d : Document) : C.Works f Eq (groupsFor env d) (groupsFor env' d) := by
  unfold groupsFor
  split
  · exact works_ask hagrees.groups
  · exact works_pure rfl

theorem works_announce (channel : Channel) :
    C.Works f Eq (announce env channel) (announce env' channel) := by
  unfold announce
  split
  · exact works_report hagrees
  · exact works_pure rfl

theorem works_tidy (scope : Scope) : C.Works f Eq (tidy env scope) (tidy env' scope) := by
  refine works_get fun q => ?_
  have hpipeline : (q.renamed f).pipeline = q.pipeline := rfl
  rw [hpipeline]
  split
  · exact works_prune hagrees scope
  · exact works_pure rfl

theorem works_carryOut (scope : Scope) (d : Document) :
    C.Works f Eq (carryOut env scope d) (carryOut env' scope d) := by
  refine works_get fun q => ?_
  refine works_bind_eq (works_ask (hagrees.apply _)) fun answer => ?_
  cases answer with
  | ok _ => exact works_enter hagrees _
  | error e => exact works_throw _

variable {deployment deployment' : Deployment}

theorem works_screen (hdocument : deployment'.document = deployment.document) :
    C.Works f Eq (screen env deployment) (screen env' deployment') := by
  unfold screen
  rw [hdocument]
  refine works_bind_eq (works_enter hagrees _) fun _ => ?_
  refine works_bind_eq (works_orFail _) fun d => ?_
  refine works_bind_eq (works_amend fun _ => rfl) fun _ => ?_
  refine works_get fun q => ?_
  refine works_bind_eq (works_orFail _) fun _ => ?_
  refine works_bind_eq (works_groupsFor hagrees d) fun groups => ?_
  refine works_bind_eq (works_orFail _) fun place => ?_
  refine works_bind_eq (works_amend fun _ => rfl) fun _ => ?_
  exact works_pure rfl

theorem works_contend (scope : Scope) (d : Document) :
    C.Works f Eq (contend env scope d) (contend env' scope d) := by
  refine works_bind_eq (works_enter hagrees _) fun _ => ?_
  refine works_get fun q => ?_
  refine works_bind_eq (works_orFail _) fun _ => ?_
  exact works_pure rfl

theorem works_install (channel : Channel) (scope : Scope) (d : Document) :
    C.Works f Eq (install env channel scope d) (install env' channel scope d) := by
  refine works_bind_eq (works_enter hagrees _) fun _ => ?_
  refine works_bind_eq (works_announce hagrees _) fun _ => ?_
  refine works_bind_eq (works_commit hagrees _ _) fun _ => ?_
  refine works_bind_eq (works_tidy hagrees _) fun _ => ?_
  exact works_carryOut hagrees _ _

variable (hdocument : deployment'.document = deployment.document)
  (hchannel : deployment'.channel = deployment.channel)

include hdocument hchannel

theorem works_course : C.Works f Eq (course env deployment) (course env' deployment') := by
  unfold course
  rw [hchannel]
  refine works_bind_eq (works_screen hagrees hdocument) fun r => ?_
  refine works_bind_eq (works_contend hagrees _ _) fun _ => ?_
  exact works_install hagrees _ _ _

theorem works_wholeCourse :
    C.Works f Eq (wholeCourse env deployment) (wholeCourse env' deployment') := by
  refine works_bind_eq (works_tryCatch (works_course hagrees hdocument hchannel) ?_)
    fun _ => works_report hagrees
  intro e
  cases e with
  | failed failure => exact works_fail hagrees failure
  | stopped stop => exact works_throw _

/-- What the pipeline makes of a deployment compares with what it makes of the same deployment under
another name, on a device that gives comparable answers. -/
theorem rel_process (hname : f deployment.id = deployment'.id) (p : Pipeline) :
    C.Rel (fun r r' => r' = (r.1.renamed f, r.2)) (Pipeline.process env deployment p)
      (Pipeline.process env' deployment' p) := by
  refine rel_bind hagrees.now fun now => ?_
  let start : Progress := ⟨p, .queued deployment.id deployment.channel now, []⟩
  have hstart : (⟨p, .queued deployment'.id deployment'.channel now, []⟩ : Progress) =
      start.renamed f := by
    rw [hchannel, ← hname]
    rfl
  rw [hstart]
  refine C.ofBind (works_wholeCourse hagrees hdocument hchannel start) ?_
  rintro ⟨r, q⟩ ⟨r', _⟩ ⟨hresult, rfl⟩
  refine C.ofPure ?_
  -- a whole course delivers nothing, so comparable results are equal
  have hsame : r' = r := by
    cases hresult with
    | ok h => rw [h]
    | error e => rfl
  rw [hsame, Outcome.ofWork_renamed]
  rfl

end Steps

end Comparison
end Pipeline
end Rollout
