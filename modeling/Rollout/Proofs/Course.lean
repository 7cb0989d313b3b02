import Mathlib.Logic.Basic
import Rollout.Proofs.Screening
import Rollout.Proofs.Verdict
import Rollout.Proofs.Work

/-!
# The course of a deployment

What the parts of `Pipeline.course` make of a deployment in work, with a journal beside the world,
and from this what the whole of it comes to: `process_verdict` says that a verdict fits the
deployment and determines what it leaves behind.
-/

namespace Rollout.Pipeline

variable {σ : Type} (env : Surroundings (StateM σ))

/-! ### Pruning -/

theorem stays_eq_true_of_isEmpty {accepted scope : Scope} {departed : NameSet}
    (h : departed.isEmpty = true) : stays accepted departed scope = true := by
  have hnot : departed.contains scope.name = false := by
    rw [← Bool.not_eq_true, NameSet.contains_eq_true, NameSet.mem_def, List.isEmpty_iff.1 h]
    exact List.not_mem_nil
  rw [stays, hnot]
  simp

theorem exec_prune (accepted : Scope) (q : Progress) (w : σ) (log : List Event)
    (h : q.pipeline.policy.prunes = true) :
    ∃ (pass : Pass) (w' : σ), pass.Fits accepted q.pipeline ∧
      exec (prune env.watched accepted) q (w, log) =
        ((.ok (), { q with pipeline := pass.next accepted q.pipeline }),
          (w', log ++ pass.events accepted q.pipeline)) := by
  rcases hread : env.groups.run w with ⟨groups, w₁⟩
  let keep := Pass.keeps accepted q.pipeline groups
  unfold prune
  rw [exec_bind_ok (exec_ask_of_run (watched_groups hread log) q), exec_bind_ok (exec_get q _)]
  dsimp only
  by_cases hcalm : (q.pipeline.observed.diff groups).isEmpty = true
  · have hnone : q.pipeline.store.dropped keep = [] :=
      Store.dropped_eq_nil.2 fun _ _ _ => stays_eq_true_of_isEmpty hcalm
    refine ⟨.done groups, w₁, h, ?_⟩
    simp only [Pass.next, Pass.events]
    rw [if_pos hcalm, if_pos hnone, Store.keepOnly_eq_self hnone, exec_set]
  rw [if_neg hcalm]
  by_cases hnone : q.pipeline.store.dropped keep = []
  · refine ⟨.done groups, w₁, h, ?_⟩
    simp only [Pass.next, Pass.events]
    rw [if_pos hnone, Store.keepOnly_eq_self hnone]
    exact exec_bind_ok (exec_ask_of_run (Store.retain_nothing hnone _) q)
  · rcases hsave : (env.save (q.pipeline.store.keepOnly keep).toSnapshot).run w₁ with ⟨answer, w₂⟩
    have hnoted := watched_save hsave (log ++ [.groups groups])
    rw [List.append_assoc] at hnoted
    cases answer with
    | ok _ =>
      refine ⟨.done groups, w₂, h, ?_⟩
      simp only [Pass.next, Pass.events]
      rw [if_neg hnone]
      exact exec_bind_ok (exec_ask_of_run (Store.retain_saved hnone hnoted) q)
    | error e =>
      refine ⟨.unsaved groups e, w₂, ⟨h, hnone⟩, ?_⟩
      exact exec_bind_ok (exec_ask_of_run (Store.retain_unsaved hnone hnoted) q)

theorem exec_tidy (accepted : Scope) (q : Progress) (w : σ) (log : List Event) :
    ∃ (pass : Pass) (w' : σ), pass.Fits accepted q.pipeline ∧
      exec (tidy env.watched accepted) q (w, log) =
        ((.ok (), { q with pipeline := pass.next accepted q.pipeline }),
          (w', log ++ pass.events accepted q.pipeline)) := by
  unfold tidy
  rw [exec_bind_ok (exec_get q _)]
  cases hprunes : q.pipeline.policy.prunes with
  | true => exact exec_prune env accepted q w log hprunes
  | false =>
    refine ⟨.off, w, hprunes, ?_⟩
    simp only [Pass.events, Pass.next, List.append_nil]
    exact exec_pure () q (w, log)

/-! ### The parts of the course -/

def Progress.titled (q : Progress) (d : Document) : Progress :=
  { q with record := { q.record with target := some d.target, createdAt := some d.createdAt } }

def Progress.placed (q : Progress) (scope : Scope) : Progress :=
  { q with record := { q.record with scope := some scope } }

theorem exec_enter_watched {stage : Stage} {q : Progress}
    (h : q.record.stage.canBecome stage = true) (w : σ) (log : List Event) :
    ∃ (t : Calendar.Instant) (w' : σ),
      exec (enter env.watched stage) q (w, log) = ((.ok (), q.entered stage t), (w', log)) :=
  ⟨_, _, exec_enter env.watched h (w, log)⟩

theorem exec_groupsFor_watched (d : Document) (q : Progress) (w : σ) (log : List Event) :
    ∃ (groups : NameSet) (w' : σ),
      exec (groupsFor env.watched d) q (w, log) =
        ((.ok groups, q), (w', log ++ Verdict.lookUp d groups)) := by
  unfold groupsFor Verdict.lookUp
  cases d.onBehalfOf.isSome with
  | true => exact ⟨_, _, exec_ask env.watched.groups q (w, log)⟩
  | false =>
    refine ⟨.empty, w, ?_⟩
    simp only [Bool.false_eq_true, if_false, List.append_nil]
    exact exec_pure _ q (w, log)

section Screen

variable {q : Progress} {deployment : Deployment}

theorem exec_screen_malformed (hq : q.record.stage = .queued) {failure : Failure}
    (hd : deployment.document = .error failure) (w : σ) (log : List Event) :
    ∃ (t : Calendar.Instant) (w' : σ),
      exec (screen env.watched deployment) q (w, log) =
        ((.error (.failed failure), q.entered .validating t), (w', log)) := by
  have hstep : q.record.stage.canBecome .validating = true := by rw [hq]; rfl
  obtain ⟨t, w₁, henter⟩ := exec_enter_watched env hstep w log
  refine ⟨t, w₁, ?_⟩
  unfold screen
  rw [exec_bind_ok henter]
  exact exec_bind_error (exec_orFail_of_error hd _ _)

variable {d : Document}

theorem exec_screen_incapable (hq : q.record.stage = .queued) {failure : Failure}
    (hd : deployment.document = .ok d)
    (hc : Capability.check q.pipeline.policy.capabilities d.capabilities = .error failure)
    (w : σ) (log : List Event) :
    ∃ (t : Calendar.Instant) (w' : σ),
      exec (screen env.watched deployment) q (w, log) =
        ((.error (.failed failure), (q.entered .validating t).titled d), (w', log)) := by
  have hstep : q.record.stage.canBecome .validating = true := by rw [hq]; rfl
  obtain ⟨t, w₁, henter⟩ := exec_enter_watched env hstep w log
  refine ⟨t, w₁, ?_⟩
  unfold screen
  rw [exec_bind_ok henter, exec_bind_ok (exec_orFail_of_ok hd _ _),
    exec_bind_ok (exec_amend _ _ _), exec_bind_ok (exec_get _ _)]
  exact exec_bind_error (exec_orFail_of_error hc _ _)

theorem exec_screen_capable (hq : q.record.stage = .queued) (hd : deployment.document = .ok d)
    (hc : Capability.check q.pipeline.policy.capabilities d.capabilities = .ok ())
    (w : σ) (log : List Event) :
    ∃ (t : Calendar.Instant) (groups : NameSet) (w' : σ),
      exec (screen env.watched deployment) q (w, log) =
        match Hierarchy.place groups d with
        | .ok place =>
          ((.ok (d, place.scope), ((q.entered .validating t).titled d).placed place.scope),
            (w', log ++ Verdict.lookUp d groups))
        | .error failure =>
          ((.error (.failed failure), (q.entered .validating t).titled d),
            (w', log ++ Verdict.lookUp d groups)) := by
  have hstep : q.record.stage.canBecome .validating = true := by rw [hq]; rfl
  obtain ⟨t, w₁, henter⟩ := exec_enter_watched env hstep w log
  obtain ⟨groups, w₂, hgroups⟩ :=
    exec_groupsFor_watched env d ((q.entered .validating t).titled d) w₁ log
  refine ⟨t, groups, w₂, ?_⟩
  unfold screen
  rw [exec_bind_ok henter, exec_bind_ok (exec_orFail_of_ok hd _ _),
    exec_bind_ok (exec_amend _ _ _), exec_bind_ok (exec_get _ _)]
  refine (exec_bind_ok (exec_orFail_of_ok hc _ _)).trans ?_
  refine (exec_bind_ok hgroups).trans ?_
  cases hplace : Hierarchy.place groups d with
  | ok place => exact exec_bind_ok (exec_orFail_of_ok rfl _ _)
  | error failure => exact exec_bind_error (exec_orFail_of_error rfl _ _)

end Screen

section Contend

variable {q : Progress} {scope : Scope} {d : Document}

theorem exec_contend_stale (hq : q.record.stage = .validating) {current : Winner}
    (hwinner : q.pipeline.store.winner? scope = some current)
    (hle : d.createdAt ≤ current.createdAt) (w : σ) (log : List Event) :
    ∃ (t : Calendar.Instant) (w' : σ),
      exec (contend env.watched scope d) q (w, log) =
        ((.error (.failed (.stale scope d.createdAt current.createdAt)),
          q.entered .arbitrating t), (w', log)) := by
  have hstep : q.record.stage.canBecome .arbitrating = true := by rw [hq]; rfl
  obtain ⟨t, w₁, henter⟩ := exec_enter_watched env hstep w log
  refine ⟨t, w₁, ?_⟩
  unfold contend
  rw [exec_bind_ok henter, exec_bind_ok (exec_get _ _)]
  exact exec_bind_error (exec_orFail_of_error (Store.decide_of_le hwinner hle) _ _)

theorem exec_contend_later (hq : q.record.stage = .validating)
    (hlater : q.pipeline.store.Later scope d.createdAt) (w : σ) (log : List Event) :
    ∃ (t : Calendar.Instant) (w' : σ),
      exec (contend env.watched scope d) q (w, log) =
        ((.ok (), q.entered .arbitrating t), (w', log)) := by
  have hstep : q.record.stage.canBecome .arbitrating = true := by rw [hq]; rfl
  obtain ⟨t, w₁, henter⟩ := exec_enter_watched env hstep w log
  refine ⟨t, w₁, ?_⟩
  obtain ⟨superseded, hdecide⟩ := Store.decide_of_later hlater
  unfold contend
  rw [exec_bind_ok henter, exec_bind_ok (exec_get _ _)]
  exact exec_bind_ok (exec_orFail_of_ok hdecide _ _)

end Contend

def Progress.announced (q : Progress) (channel : Channel) (t : Calendar.Instant) : Progress :=
  { q with reports := q.reports ++ if channel = .jobs then [.ofRecord t q.record] else [] }

theorem exec_announce_watched (channel : Channel) (q : Progress) (w : σ) (log : List Event) :
    ∃ (t : Calendar.Instant) (w' : σ),
      exec (announce env.watched channel) q (w, log) =
        ((.ok (), q.announced channel t), (w', log)) := by
  unfold announce Progress.announced
  by_cases hjobs : channel = .jobs
  · rw [if_pos hjobs]
    simp only [if_pos hjobs]
    exact ⟨_, _, exec_report env.watched q (w, log)⟩
  · rw [if_neg hjobs]
    simp only [if_neg hjobs, List.append_nil]
    exact ⟨(env.now.run w).1, w, exec_pure () q (w, log)⟩

section Commit

variable {scope : Scope} {d : Document} {q : Progress}
  (hlater : q.pipeline.store.Later scope d.createdAt)

include hlater

theorem exec_commit_exhausted (hfull : ¬q.pipeline.store.Room) (w : σ) (log : List Event) :
    exec (commit env.watched scope d) q (w, log) =
      ((.error (.stopped .exhausted), q), (w, log)) := by
  have hwinner : q.pipeline.store.Later scope (Winner.ofDocument scope d).createdAt := hlater
  unfold commit
  rw [exec_bind_ok (exec_get q _)]
  exact exec_bind_ok (exec_ask_of_run (Store.replace_exhausted hwinner hfull (w, log)) q)

theorem exec_commit_watched (hroom : q.pipeline.store.Room) (w : σ) (log : List Event) :
    ∃ (answer : Except Snapshot.SaveError Unit) (w' : σ),
      exec (commit env.watched scope d) q (w, log) =
        ((match answer with
          | .ok () => (.ok (), { q with pipeline := Verdict.committed q.pipeline scope d })
          | .error e => (.error (.failed (.storage (": ".intercalate e.chain))), q)),
          (w', log ++ [.save (Verdict.committed q.pipeline scope d).store.toSnapshot answer])) := by
  let winner : Winner := .ofDocument scope d
  have hwinner : q.pipeline.store.Later scope winner.createdAt := hlater
  rcases hsave : (env.save (q.pipeline.store.accept scope winner).toSnapshot).run w with
    ⟨answer, w₁⟩
  have hnoted := watched_save hsave log
  refine ⟨answer, w₁, ?_⟩
  unfold commit
  rw [exec_bind_ok (exec_get q _)]
  cases answer with
  | ok _ =>
    refine (exec_bind_ok (exec_ask_of_run (Store.replace_saved hwinner hroom hnoted) q)).trans ?_
    rfl
  | error e =>
    refine (exec_bind_ok (exec_ask_of_run (Store.replace_unsaved hwinner hroom hnoted) q)).trans ?_
    rfl

end Commit

theorem exec_carryOut_watched (scope : Scope) (d : Document) {q : Progress}
    (hq : q.record.stage = .applying) (w : σ) (log : List Event) :
    ∃ (answer : Except ApplyFailure Unit) (t : Calendar.Instant) (w' : σ),
      exec (carryOut env.watched scope d) q (w, log) =
        ((match answer with
          | .ok () => (.ok (), q.entered .succeeded t)
          | .error failure => (.error (.failed (.apply failure)), q)),
          (w', log ++ [.apply (Verdict.plan d scope q.pipeline) answer])) := by
  have hstep : q.record.stage.canBecome .succeeded = true := by rw [hq]; rfl
  rcases happly : (env.apply (Verdict.plan d scope q.pipeline)).run w with ⟨answer, w₁⟩
  have hnoted := watched_apply happly log
  unfold carryOut
  rw [exec_bind_ok (exec_get q _)]
  cases answer with
  | ok _ =>
    obtain ⟨t, w₂, henter⟩ := exec_enter_watched env hstep w₁ (log ++ [.apply _ (.ok ())])
    refine ⟨.ok (), t, w₂, ?_⟩
    exact (exec_bind_ok (exec_ask_of_run hnoted q)).trans henter
  | error failure =>
    refine ⟨.error failure, (env.now.run w).1, w₁, ?_⟩
    exact (exec_bind_ok (exec_ask_of_run hnoted q)).trans (exec_throw _ _ _)

def Progress.applying (q : Progress) (channel : Channel) (t t' : Calendar.Instant) : Progress :=
  (q.entered .applying t).announced channel t'

section Install

variable (channel : Channel) {scope : Scope} {d : Document} {q : Progress}
  (hq : q.record.stage = .arbitrating) (hlater : q.pipeline.store.Later scope d.createdAt)

include hq hlater

theorem exec_install_exhausted (hfull : ¬q.pipeline.store.Room) (w : σ) (log : List Event) :
    ∃ (t t' : Calendar.Instant) (w' : σ),
      exec (install env.watched channel scope d) q (w, log) =
        ((.error (.stopped .exhausted), q.applying channel t t'), (w', log)) := by
  have hstep : q.record.stage.canBecome .applying = true := by rw [hq]; rfl
  obtain ⟨t, w₁, henter⟩ := exec_enter_watched env hstep w log
  obtain ⟨t', w₂, hannounce⟩ := exec_announce_watched env channel (q.entered .applying t) w₁ log
  refine ⟨t, t', w₂, ?_⟩
  unfold install
  rw [exec_bind_ok henter, exec_bind_ok hannounce]
  exact exec_bind_error
    (exec_commit_exhausted env (q := q.applying channel t t') hlater hfull w₂ log)

theorem exec_install_watched (hroom : q.pipeline.store.Room) (w : σ) (log : List Event) :
    ∃ t t' : Calendar.Instant,
      (∃ (e : Snapshot.SaveError) (w' : σ),
        exec (install env.watched channel scope d) q (w, log) =
          ((.error (.failed (.storage (": ".intercalate e.chain))), q.applying channel t t'),
            (w', log ++ [.save (Verdict.committed q.pipeline scope d).store.toSnapshot
              (.error e)]))) ∨
      ∃ (pass : Pass) (answer : Except ApplyFailure Unit) (t'' : Calendar.Instant) (w' : σ),
        let p := Verdict.committed q.pipeline scope d
        let q' : Progress := { q.applying channel t t' with pipeline := pass.next scope p }
        pass.Fits scope p ∧
          exec (install env.watched channel scope d) q (w, log) =
            ((match answer with
              | .ok () => (.ok (), q'.entered .succeeded t'')
              | .error failure => (.error (.failed (.apply failure)), q')),
              (w', log ++ .save p.store.toSnapshot (.ok ()) :: (pass.events scope p ++
                [.apply (Verdict.plan d scope (pass.next scope p)) answer]))) := by
  have hstep : q.record.stage.canBecome .applying = true := by rw [hq]; rfl
  obtain ⟨t, w₁, henter⟩ := exec_enter_watched env hstep w log
  obtain ⟨t', w₂, hannounce⟩ := exec_announce_watched env channel (q.entered .applying t) w₁ log
  refine ⟨t, t', ?_⟩
  unfold install
  rw [exec_bind_ok henter, exec_bind_ok hannounce]
  obtain ⟨saved, w₃, hcommit⟩ :=
    exec_commit_watched env (q := q.applying channel t t') hlater hroom w₂ log
  cases saved with
  | error e => exact .inl ⟨e, w₃, exec_bind_error hcommit⟩
  | ok _ =>
    refine .inr ?_
    let p := Verdict.committed q.pipeline scope d
    let q₁ : Progress := { q.applying channel t t' with pipeline := p }
    obtain ⟨pass, w₄, hfits, htidy⟩ :=
      exec_tidy env scope q₁ w₃ (log ++ [.save p.store.toSnapshot (.ok ())])
    let q₂ : Progress := { q₁ with pipeline := pass.next scope p }
    have hq₂ : q₂.record.stage = .applying := rfl
    obtain ⟨answer, t'', w₅, hcarry⟩ := exec_carryOut_watched env scope d hq₂ w₄ _
    refine ⟨pass, answer, t'', w₅, hfits, ?_⟩
    refine (exec_bind_ok hcommit).trans ((exec_bind_ok htidy).trans (hcarry.trans ?_))
    simp only [List.append_assoc, List.cons_append, List.nil_append]
    rfl

end Install

/-! ### The whole way -/

section Settle

variable {deployment : Deployment} {q q' : Progress} {w w' : σ} {log log' : List Event}

theorem exec_course_of_error {e : Halt} {u u' : σ × List Event}
    (h : exec (screen env.watched deployment) q u = ((.error e, q'), u')) :
    exec (course env.watched deployment) q u = ((.error e, q'), u') := by
  unfold course
  exact exec_bind_error h

theorem exec_course_of_ok {d : Document} {scope : Scope} {u u' : σ × List Event}
    (h : exec (screen env.watched deployment) q u = ((.ok (d, scope), q'), u')) :
    exec (course env.watched deployment) q u =
      exec (contend env.watched scope d >>= fun _ =>
        install env.watched deployment.channel scope d) q' u' := by
  unfold course
  rw [exec_bind_ok h]

theorem exec_settle_ok
    (h : exec (course env.watched deployment) q (w, log) = ((.ok (), q'), (w', log'))) :
    exec (settle env.watched deployment) q (w, log) = ((.ok (), q'), (w', log')) := by
  unfold settle
  rw [exec_tryCatch, h]

theorem exec_settle_stopped {stop : Stop}
    (h : exec (course env.watched deployment) q (w, log) =
      ((.error (.stopped stop), q'), (w', log'))) :
    exec (settle env.watched deployment) q (w, log) =
      ((.error (.stopped stop), q'), (w', log')) := by
  unfold settle
  rw [exec_tryCatch, h]
  rfl

theorem exec_settle_failed {failure : Failure}
    (hstep : q'.record.stage.canBecome failure.finalStage = true)
    (h : exec (course env.watched deployment) q (w, log) =
      ((.error (.failed failure), q'), (w', log'))) :
    ∃ (t : Calendar.Instant) (w'' : σ),
      exec (settle env.watched deployment) q (w, log) =
        ((.ok (), q'.failed failure t), (w'', log')) := by
  refine ⟨(env.now.run w').1, (env.now.run w').2, ?_⟩
  unfold settle
  rw [exec_tryCatch, h]
  exact exec_fail env.watched hstep (w', log')

end Settle

/-- Whether some work ends in the way of a verdict. -/
structure EndsAs (x : Work (StateM (σ × List Event)) Unit) (deployment : Deployment)
    (q : Progress) (w : σ) (log : List Event) (v : Verdict) (q' : Progress) (w' : σ) : Prop where
  run : exec x q (w, log) = ((v.halt, q'), (w', log ++ v.events q.pipeline))
  pipeline : q'.pipeline = v.next q.pipeline
  path : q'.record.history.map Prod.fst = v.path
  record : q'.record = v.record deployment q'.record.history
  reports : ∃ t, q'.reports = v.announcement deployment t

def Progress.fresh (p : Pipeline) (deployment : Deployment) (now : Calendar.Instant) : Progress :=
  ⟨p, .queued deployment.id deployment.channel now, []⟩

theorem exec_settle_refused {deployment : Deployment} {p : Pipeline} {now : Calendar.Instant}
    {w w' : σ} {log : List Event} {q' : Progress} {failure : Failure}
    (hfinal : failure.finalStage = .rejected) (hstage : q'.record.stage = .validating)
    (h : exec (screen env.watched deployment) (.fresh p deployment now) (w, log) =
      ((.error (.failed failure), q'), (w', log'))) :
    ∃ (t : Calendar.Instant) (w'' : σ),
      exec (settle env.watched deployment) (.fresh p deployment now) (w, log) =
        ((.ok (), q'.failed failure t), (w'', log')) := by
  have hstep : q'.record.stage.canBecome failure.finalStage = true := by
    rw [hfinal, hstage]
    rfl
  exact exec_settle_failed env hstep (exec_course_of_error env h)

def Progress.ready (p : Pipeline) (deployment : Deployment) (d : Document) (scope : Scope)
    (now t : Calendar.Instant) : Progress :=
  (((Progress.fresh p deployment now).entered .validating t).titled d).placed scope

theorem exec_settle_placed {deployment : Deployment} {p : Pipeline} {now t : Calendar.Instant}
    {w w₁ : σ} {log : List Event} {d : Document} {groups : NameSet} {place : Hierarchy.Place}
    (hplaced : Verdict.Placed p deployment d groups place)
    (hscreen : exec (screen env.watched deployment) (.fresh p deployment now) (w, log) =
      ((.ok (d, place.scope), .ready p deployment d place.scope now t),
        (w₁, log ++ Verdict.lookUp d groups))) :
    ∃ (v : Verdict) (q' : Progress) (w' : σ), v.Fits p deployment ∧
      EndsAs (settle env.watched deployment) deployment (.fresh p deployment now) w log v q'
        w' := by
  let scope := place.scope
  let q₁ := Progress.ready p deployment d scope now t
  have hq₁ : q₁.record.stage = .validating := rfl
  have hcourse := exec_course_of_ok env hscreen
  rcases p.store.later_or_not scope d.createdAt with hlater | ⟨current, hwinner, hle⟩
  · obtain ⟨t₁, w₂, hcontend⟩ :=
      exec_contend_later env hq₁ hlater w₁ (log ++ Verdict.lookUp d groups)
    rw [exec_bind_ok hcontend] at hcourse
    let q₂ := q₁.entered .arbitrating t₁
    have hq₂ : q₂.record.stage = .arbitrating := rfl
    by_cases hroom : p.store.Room
    case neg =>
      obtain ⟨t₂, t₃, w₃, hinstall⟩ := exec_install_exhausted env deployment.channel hq₂ hlater
        hroom w₂ (log ++ Verdict.lookUp d groups)
      exact ⟨.exhausted d groups place, q₂.applying deployment.channel t₂ t₃, w₃,
        ⟨hplaced, hlater, hroom⟩, exec_settle_stopped env (hcourse.trans hinstall), rfl, rfl, rfl,
        t₃, rfl⟩
    obtain ⟨t₂, t₃, hinstall⟩ := exec_install_watched env deployment.channel hq₂ hlater hroom w₂
      (log ++ Verdict.lookUp d groups)
    let q₃ := q₂.applying deployment.channel t₂ t₃
    rcases hinstall with ⟨e, w₃, hinstall⟩ | ⟨pass, answer, t₄, w₃, hpass, hinstall⟩
    · have hunsaved := hcourse.trans hinstall
      obtain ⟨t₄, w₄, hrun⟩ := exec_settle_failed env rfl hunsaved
      refine ⟨.unsaved d groups place e, q₃.failed (.storage (": ".intercalate e.chain)) t₄, w₄,
        ⟨hplaced, hlater, hroom⟩, ?_, rfl, rfl, rfl, t₃, rfl⟩
      rw [hrun, List.append_assoc]
      rfl
    · let p' := pass.next scope (Verdict.committed p scope d)
      have hdone := hcourse.trans hinstall
      rw [List.append_assoc] at hdone
      cases answer with
      | ok _ =>
        have hrun := exec_settle_ok env hdone
        refine ⟨.accepted d groups place pass (.ok ()),
          ({ q₃ with pipeline := p' } : Progress).entered .succeeded t₄, w₃,
          ⟨hplaced, hlater, hroom, hpass⟩, hrun, rfl, rfl, rfl, t₃, rfl⟩
      | error failure =>
        obtain ⟨t₅, w₄, hrun⟩ := exec_settle_failed env rfl hdone
        refine ⟨.accepted d groups place pass (.error failure),
          ({ q₃ with pipeline := p' } : Progress).failed (.apply failure) t₅, w₄,
          ⟨hplaced, hlater, hroom, hpass⟩, hrun, rfl, rfl, rfl, t₃, rfl⟩
  · obtain ⟨t₁, w₂, hcontend⟩ :=
      exec_contend_stale env hq₁ hwinner hle w₁ (log ++ Verdict.lookUp d groups)
    have hstale := hcourse.trans (exec_bind_error hcontend)
    obtain ⟨t₂, w₃, hrun⟩ := exec_settle_failed env rfl hstale
    exact ⟨.stale d groups place current,
      (q₁.entered .arbitrating t₁).failed (.stale scope d.createdAt current.createdAt) t₂, w₃,
      ⟨hplaced, hwinner, hle⟩, hrun, rfl, rfl, rfl, t₂, rfl⟩

theorem exec_settle (deployment : Deployment) (p : Pipeline) (now : Calendar.Instant) (w : σ)
    (log : List Event) :
    ∃ (v : Verdict) (q' : Progress) (w' : σ), v.Fits p deployment ∧
      EndsAs (settle env.watched deployment) deployment (.fresh p deployment now) w log v q'
        w' := by
  let q := Progress.fresh p deployment now
  have hq : q.record.stage = .queued := rfl
  cases hd : deployment.document with
  | error failure =>
    obtain ⟨t, w₁, hscreen⟩ := exec_screen_malformed env hq hd w log
    obtain ⟨t', w₂, hrun⟩ := exec_settle_refused env (finalStage_of_document hd) rfl hscreen
    refine ⟨.malformed failure, (q.entered .validating t).failed failure t', w₂, hd, ?_, rfl, rfl,
      rfl, t, rfl⟩
    rw [hrun]
    simp only [Verdict.events, List.append_nil]
    rfl
  | ok d =>
    cases hc : Capability.check p.policy.capabilities d.capabilities with
    | error failure =>
      obtain ⟨t, w₁, hscreen⟩ := exec_screen_incapable env hq hd hc w log
      obtain ⟨t', w₂, hrun⟩ := exec_settle_refused env (finalStage_of_check hc) rfl hscreen
      refine ⟨.incapable d failure, ((q.entered .validating t).titled d).failed failure t', w₂,
        ⟨hd, hc⟩, ?_, rfl, rfl, rfl, t, rfl⟩
      rw [hrun]
      simp only [Verdict.events, List.append_nil]
      rfl
    | ok _ =>
      obtain ⟨t, groups, w₁, hscreen⟩ := exec_screen_capable env hq hd hc w log
      cases hplace : Hierarchy.place groups d with
      | error failure =>
        rw [hplace] at hscreen
        obtain ⟨t', w₂, hrun⟩ := exec_settle_refused env (finalStage_of_place hplace) rfl hscreen
        refine ⟨.misplaced d groups failure, ((q.entered .validating t).titled d).failed failure t',
          w₂, ⟨hd, hc, hplace⟩, ?_, rfl, rfl, rfl, t, rfl⟩
        exact hrun
      | ok place =>
        rw [hplace] at hscreen
        exact exec_settle_placed env ⟨hd, hc, hplace⟩ hscreen

/-- The report of the end is the last thing that is done. -/
theorem exec_wholeCourse {deployment : Deployment} {p : Pipeline} {now : Calendar.Instant}
    {w w' : σ} {log : List Event} {v : Verdict} {q' : Progress}
    (h : EndsAs (settle env.watched deployment) deployment (.fresh p deployment now) w log v q'
      w') :
    ∃ (t : Calendar.Instant) (w'' : σ),
      exec (wholeCourse env.watched deployment) (.fresh p deployment now) (w, log) =
        ((v.halt, { q' with reports := q'.reports ++ v.closing deployment t }),
          (w'', log ++ v.events p)) := by
  have hrun := h.run
  unfold wholeCourse
  cases hstop : v.stop? with
  | none =>
    have hhalt : v.halt = .ok () := by rw [Verdict.halt, hstop]
    refine ⟨(env.now.run w').1, (env.now.run w').2, ?_⟩
    rw [hhalt] at hrun ⊢
    rw [exec_bind_ok hrun, Verdict.closing, hstop]
    refine (exec_report env.watched q' _).trans ?_
    rw [h.record]
    rfl
  | some stop =>
    have hhalt : v.halt = .error (.stopped stop) := by rw [Verdict.halt, hstop]
    refine ⟨now, w', ?_⟩
    rw [hhalt] at hrun ⊢
    rw [exec_bind_error hrun, Verdict.closing, hstop]
    simp only [Option.isSome_some, if_true, List.append_nil]
    rfl

theorem Verdict.ofWork_halt (v : Verdict) {deployment : Deployment} {q : Progress}
    (h : q.record = v.record deployment q.record.history) :
    Outcome.ofWork v.halt q = ⟨v.result deployment q.record.history, q.reports⟩ := by
  unfold halt result
  cases v.stop? with
  | none =>
    rw [← h]
    rfl
  | some stop => rfl

theorem process_run (deployment : Deployment) (p : Pipeline) (w : σ) :
    (process env deployment p).run w =
      let r := exec (wholeCourse env deployment) (.fresh p deployment (env.now.run w).1)
        (env.now.run w).2
      ((.ofWork r.1.1 r.1.2, r.1.2.pipeline), r.2) := rfl

def journal (deployment : Deployment) (p : Pipeline) (w : σ) : List Event :=
  ((process env.watched deployment p).run (w, [])).2.2

/-- The journal of a deployment tells how the world has changed. -/
theorem journal_history (deployment : Deployment) (p : Pipeline) (w : σ) :
    History env w (journal env deployment p w) ((process env deployment p).run w).2 := by
  obtain ⟨more, hmore, hsame⟩ := process_watched env deployment p w []
  unfold journal
  rw [hsame]
  exact hmore

/-- The whole of what a deployment does is that of a verdict that fits it. -/
theorem process_verdict (deployment : Deployment) (p : Pipeline) (w : σ) :
    ∃ (v : Verdict) (history : List (Stage × Calendar.Instant)), v.Fits p deployment ∧
      history.map Prod.fst = v.path ∧
      ((process env deployment p).run w).1.1.result = v.result deployment history ∧
      (∃ t t', ((process env deployment p).run w).1.1.reports =
        v.announcement deployment t ++ v.closing deployment t') ∧
      ((process env deployment p).run w).1.2 = v.next p ∧
      journal env deployment p w = v.events p := by
  obtain ⟨v, q', w₂, hfits, hsettle⟩ :=
    exec_settle env deployment p (env.now.run w).1 (env.now.run w).2 []
  obtain ⟨t', w₃, hwhole⟩ := exec_wholeCourse env hsettle
  have hended := v.ofWork_halt (q := { q' with reports := q'.reports ++ v.closing deployment t' })
    hsettle.record
  have hwatched : (process env.watched deployment p).run (w, []) =
      ((⟨v.result deployment q'.record.history, q'.reports ++ v.closing deployment t'⟩,
        q'.pipeline), (w₃, v.events p)) := by
    refine (process_run env.watched deployment p (w, [])).trans ?_
    refine (congrArg (fun r : (Except Halt Unit × Progress) × (σ × List Event) =>
      ((Outcome.ofWork r.1.1 r.1.2, r.1.2.pipeline), r.2)) hwhole).trans ?_
    rw [hended]
    rfl
  -- the same happens without the journal
  obtain ⟨more, -, hsame⟩ := process_watched env deployment p w []
  have hplain : ((process env deployment p).run w).1 =
      (⟨v.result deployment q'.record.history, q'.reports ++ v.closing deployment t'⟩,
        q'.pipeline) := by
    rw [hsame] at hwatched
    exact congrArg Prod.fst hwatched
  obtain ⟨t, hreports⟩ := hsettle.reports
  refine ⟨v, q'.record.history, hfits, hsettle.path, ?_, ⟨t, t', ?_⟩, ?_, ?_⟩
  · rw [hplain]
  · rw [hplain, ← hreports]
  · rw [hplain]
    exact hsettle.pipeline
  · unfold journal
    rw [hwatched]

end Rollout.Pipeline
