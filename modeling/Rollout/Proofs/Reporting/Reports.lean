import Rollout.Proofs.Series
import Rollout.Report.Basic

/-!
# What reports tell

Both updates that are made of a report say what the record says at that moment: under which names
they go, how the deployment stands, and of a failure its status, its codes with their kinds and its
cause.  A deployment has one report that it is being applied, if it gets there and has come as a
job, and then one of its end.
-/

namespace Rollout

/-! ### One report -/

/-- Whether details are those that a record has of a failure, each code under its name. -/
structure Details.Give (details : Details) (r : Record) : Prop where
  detailedStatus : details.detailedStatus = r.detailedStatus.map DetailedStatus.name
  errorStack : details.errorStack = r.errorStack.map FailureCode.name
  errorKinds : details.errorKinds = r.errorKinds.map FailureKind.name
  cause : details.cause = r.cause

structure JobUpdate.Tells (u : JobUpdate) (r : Record) : Prop where
  deployment : u.deployment = r.deployment
  target : u.target = r.target
  scope : u.scope = r.scope
  status : u.status = .ofStage r.stage
  details : u.details.Give r

structure FleetUpdate.Tells (u : FleetUpdate) (r : Record) : Prop where
  /-- The update goes under the scope, as far as it is known. -/
  deployment : u.deployment = ((r.scope.map Scope.name).or r.target).getD r.deployment
  trigger : u.trigger = .ofChannel r.channel
  status : u.status = .ofStage r.stage
  details : u.details.Give r

structure Report.Tells (report : Report) (r : Record) : Prop where
  channel : report.channel = r.channel
  status : report.status = .ofStage r.stage
  job : (JobUpdate.ofReport report).Tells r
  fleet : (FleetUpdate.ofReport report).Tells r

theorem Details.give_ofRecord (r : Record) : (Details.ofRecord r).Give r := ⟨rfl, rfl, rfl, rfl⟩

theorem Report.tells_ofRecord (now : Calendar.Instant) (r : Record) :
    (Report.ofRecord now r).Tells r where
  channel := rfl
  status := rfl
  job := ⟨rfl, rfl, rfl, rfl, Details.give_ofRecord r⟩
  fleet := ⟨rfl, rfl, rfl, Details.give_ofRecord r⟩

/-! ### The reports of a deployment -/

namespace Pipeline

/-- Whether an outcome is that of a record, with one report that the deployment was being applied,
if it got there and has come as a job, and then one report of its end. -/
structure Outcome.Tells (outcome : Outcome) (d : Deployment) (r : Record) : Prop where
  own : EndOf d r
  result : outcome.result = .ok r
  statuses : outcome.reports.map Report.status =
    (if r.channel = .jobs ∧ .applying ∈ r.history.map Prod.fst then [.inProgress] else []) ++
      [.ofStage r.stage]
  final : (JobStatus.ofStage r.stage).isFinal = true
  /-- Before the end there is no failure to tell of. -/
  announced : ∀ report ∈ outcome.reports, report.status.isFinal = false → report.Tells r.unfinished
  ended : ∀ report ∈ outcome.reports, report.status.isFinal = true → report.Tells r

/-- Whether an outcome is that of a deployment that could not be counted: it has no record, and at
most the report that it was being applied. -/
structure Outcome.BreaksOff (outcome : Outcome) (d : Deployment) : Prop where
  result : outcome.result = .error .exhausted
  statuses : outcome.reports.map Report.status = if d.channel = .jobs then [.inProgress] else []
  own : ∀ report ∈ outcome.reports, report.deployment = d.id ∧ report.channel = d.channel

theorem isFinal_ofStage {stage : Stage} (h : stage.isFinal = true) :
    (JobStatus.ofStage stage).isFinal = true := by
  cases stage with
  | succeeded | rejected | failed => rfl
  | queued | validating | arbitrating | applying => cases h

theorem tells_of_reports {outcome : Outcome} {d : Deployment} {r : Record} (hown : EndOf d r)
    (hresult : outcome.result = .ok r) {now now' : Calendar.Instant}
    (hreports : outcome.reports =
      (if r.channel = .jobs ∧ .applying ∈ r.history.map Prod.fst then [.ofRecord now r.unfinished]
        else []) ++ [.ofRecord now' r]) : outcome.Tells d r := by
  have hfinal := isFinal_ofStage hown.final
  have hmem : ∀ report ∈ outcome.reports,
      report = .ofRecord now r.unfinished ∨ report = .ofRecord now' r := by
    rw [hreports]
    intro report hmem
    rcases List.mem_append.1 hmem with hmem | hmem
    · split at hmem
      · exact .inl (List.mem_singleton.1 hmem)
      · cases hmem
    · exact .inr (List.mem_singleton.1 hmem)
  refine ⟨hown, hresult, ?_, hfinal, fun report hreport hnot => ?_, fun report hreport hends => ?_⟩
  · rw [hreports, List.map_append]
    split <;> rfl
  · rcases hmem report hreport with rfl | rfl
    · exact Report.tells_ofRecord now r.unfinished
    · exact absurd (hnot.symm.trans hfinal) Bool.false_ne_true
  · rcases hmem report hreport with rfl | rfl
    · -- a deployment that is being applied has not ended
      cases hends
    · exact Report.tells_ofRecord now' r

theorem Verdict.applying_mem_path {v : Verdict} (hended : v.stop? = none) :
    .applying ∈ v.path ↔ v.isApplied = true := by
  have hstage : v.stage ≠ .applying := by
    intro h
    have hfinal := isFinal_stage hended
    rw [h] at hfinal
    cases hfinal
  have hreached : .applying ∈ v.path ↔ .applying ∈ v.reached := by
    rw [path, List.mem_append, List.mem_singleton]
    exact or_iff_left fun h => hstage h.symm
  rw [hreached]
  cases v with
  | exhausted => cases hended
  | _ => simp [reached, isApplied]

/-- The announcement, as the record of the deployment tells in the end. -/
theorem Verdict.announcement_eq {v : Verdict} (hended : v.stop? = none)
    {history : List (Stage × Calendar.Instant)} (hpath : history.map Prod.fst = v.path)
    (deployment : Deployment) (now : Calendar.Instant) :
    v.announcement deployment now =
      if deployment.channel = .jobs ∧ .applying ∈ history.map Prod.fst then
        [.ofRecord now (v.record deployment history).unfinished]
      else [] := by
  have happlying := applying_mem_path hended
  rw [← hpath] at happlying
  rw [announcement]
  by_cases happlied : v.isApplied = true
  · rw [if_pos happlied]
    by_cases hjobs : deployment.channel = .jobs
    · rw [if_pos hjobs, if_pos ⟨hjobs, happlying.2 happlied⟩]
      rfl
    · rw [if_neg hjobs, if_neg fun h => hjobs h.1]
  · rw [if_neg happlied, if_neg fun h => happlied (happlying.1 h.2)]

section Turns

variable {σ : Type} {env : Surroundings (StateM σ)} {p : Pipeline} {t : Turn σ}

theorem exists_tells (h : (t.outcome env p).isExhausted = false) :
    ∃ r, (t.outcome env p).Tells t.deployment r := by
  obtain ⟨v, hends, now, now', hreports⟩ := t.ends_reporting env p
  rw [hends.isExhausted_eq, Option.isSome_eq_false_iff, Option.isNone_iff_eq_none] at h
  obtain ⟨history, hpath, hrecord⟩ := hends.recorded h
  rw [Verdict.announcement_eq h hpath, Verdict.closing, h] at hreports
  exact ⟨_, tells_of_reports (hends.endOf hrecord) hrecord hreports⟩

theorem breaksOff (h : (t.outcome env p).isExhausted = true) :
    (t.outcome env p).BreaksOff t.deployment := by
  obtain ⟨v, hends, now, now', hreports⟩ := t.ends_reporting env p
  rw [hends.isExhausted_eq, Option.isSome_iff_exists] at h
  obtain ⟨stop, hstop⟩ := h
  obtain ⟨-, d, groups, place, rfl⟩ := Verdict.stop?_eq_some hstop
  obtain ⟨history, -, hresult⟩ := hends.record
  have hannounced : (t.outcome env p).reports =
      if t.deployment.channel = .jobs then
        [.ofRecord now ((Verdict.exhausted d groups place).record t.deployment []).unfinished]
      else [] := hreports.trans (List.append_nil _)
  refine ⟨hresult, ?_, fun report hmem => ?_⟩
  · rw [hannounced]
    split <;> rfl
  · rw [hannounced] at hmem
    split at hmem
    · cases List.mem_singleton.1 hmem
      exact ⟨rfl, rfl⟩
    · cases hmem

end Turns

end Pipeline
end Rollout
