import Mathlib.Logic.Function.Basic
import Rollout.Proofs.Effects

/-!
# Racing clients

Clients share one store.  Each compares a document with the winner of a scope and later tries to
make it the winner there, while others may act in between.  The answer to the comparison may be out
of date by then; the store compares again, and this alone keeps the winners of each scope in the
order of their times.  A deployment that shares the store is such a client (`DeploysAs`).
-/

namespace Rollout.Racing

/-! ### The two steps of a client -/

def arbitrate (s : Store) (scope : Scope) (d : Document) : Except Failure (Option Int64) :=
  Arbitration.decide scope d.createdAt ((s.winner? scope).map Winner.createdAt)

/-- What a client is told when it has tried to make a document the winner: at the end of the counter
it is told nothing and stops. -/
def told : Except Store.ReplaceError Winner → Except Pipeline.Halt Winner
  | .ok w => .ok w
  | .error .exhausted => .error (.stopped .exhausted)
  | .error e => .error (.failed (.storage (": ".intercalate e.chain)))

variable {ι σ : Type}

/-- What a client has compared, with the answer that it got. -/
structure Candidate where
  scope : Scope
  document : Document
  answer : Except Failure (Option Int64)

def Candidate.winner (c : Candidate) : Winner := .ofDocument c.scope c.document

structure State (ι σ : Type) where
  store : Store
  world : σ
  /-- What the clients have compared and not yet tried to commit. -/
  pending : ι → Option Candidate

def State.start (s : Store) (w : σ) : State ι σ := ⟨s, w, fun _ => none⟩

/-- What a client has done, with what came of it. -/
inductive Action (ι : Type) where
  | arbitrated (client : ι) (c : Candidate)
  | committed (client : ι) (c : Candidate) (result : Except Store.ReplaceError Winner)

/-- The steps of the clients.  A client may try to commit whatever the answer to its comparison
was. -/
inductive Step [DecidableEq ι] (save : Snapshot → StateM σ (Except Snapshot.SaveError Unit)) :
    State ι σ → Action ι → State ι σ → Prop
  | arbitrate {s : State ι σ} (client : ι) (hfree : s.pending client = none) (scope : Scope)
      (d : Document) :
    Step save s (.arbitrated client ⟨scope, d, arbitrate s.store scope d⟩)
      { s with
        pending :=
          Function.update s.pending client (some ⟨scope, d, arbitrate s.store scope d⟩) }
  | commit {s : State ι σ} (client : ι) {c : Candidate} (hpending : s.pending client = some c)
      {result : Except Store.ReplaceError Winner} {store : Store} {world : σ}
      (hrun : (s.store.replace save c.scope c.winner).run s.world = ((result, store), world)) :
    Step save s (.committed client c result)
      ⟨store, world, Function.update s.pending client none⟩

/-- What can come of a state, with all that happens on the way. -/
inductive Run [DecidableEq ι] (save : Snapshot → StateM σ (Except Snapshot.SaveError Unit))
    (first : State ι σ) : List (Action ι) → State ι σ → Prop
  | start : Run save first [] first
  | step {log : List (Action ι)} {s s' : State ι σ} {a : Action ι} :
    Run save first log s → Step save s a s' → Run save first (log ++ [a]) s'

/-! ### What has happened -/

/-- The winners of a scope that were committed, in the order in which this was done. -/
def commits (scope : Scope) (log : List (Action ι)) : List Winner :=
  log.filterMap fun
    | .committed _ c (.ok w) => if c.scope = scope then some w else none
    | _ => none

/-- The winners that a scope has had. -/
def winners (first : Store) (scope : Scope) (log : List (Action ι)) : List Winner :=
  (first.winner? scope).toList ++ commits scope log

/-- Whether a commit was refused because of its time. -/
def RefusedForTime (result : Except Store.ReplaceError Winner) : Prop :=
  ∃ scope candidate current, result = .error (.notNewer scope candidate current)

section Views

variable (first : Store) (scope : Scope) (log : List (Action ι))

theorem commits_snoc (a : Action ι) :
    commits scope (log ++ [a]) = commits scope log ++ commits scope [a] :=
  List.filterMap_append

theorem winners_snoc (a : Action ι) :
    winners first scope (log ++ [a]) = winners first scope log ++ commits scope [a] := by
  rw [winners, commits_snoc, ← List.append_assoc]
  rfl

theorem commits_ok (client : ι) (c : Candidate) (w : Winner) :
    commits scope [.committed client c (.ok w)] = if c.scope = scope then [w] else [] := by
  by_cases hscope : c.scope = scope <;> simp [commits, hscope]

end Views

theorem arbitrate_isOk (s : Store) (scope : Scope) (d : Document) :
    (arbitrate s scope d).isOk = true ↔ s.Later scope d.createdAt := by
  rw [arbitrate]
  rcases s.later_or_not scope d.createdAt with hlater | ⟨current, hcurrent, hle⟩
  · obtain ⟨superseded, hdecide⟩ := Store.decide_of_later hlater
    rw [hdecide]
    exact ⟨fun _ => hlater, fun _ => rfl⟩
  · rw [Store.decide_of_le hcurrent hle]
    exact ⟨nofun, fun hlater => absurd hle (Int64.not_le.2 (hlater current hcurrent))⟩

/-! ### The order of the winners of a scope -/

/-- Whether the winners of each scope have come in the order of their times, and the last of them is
the current one. -/
structure Ordered (first : Store) (log : List (Action ι)) (s : Store) : Prop where
  ascending : ∀ scope, (winners first scope log).Pairwise fun a b => a.createdAt < b.createdAt
  latest : ∀ scope, s.winner? scope = (winners first scope log).getLast?

section Order

variable {first s : Store} {log : List (Action ι)}

theorem ordered_start (first : Store) : Ordered first ([] : List (Action ι)) first := by
  constructor
  all_goals
    intro scope
    cases hw : first.winner? scope <;> simp [winners, commits, hw]

theorem Ordered.keep (h : Ordered first log s) {a : Action ι}
    (hnone : ∀ scope, commits scope [a] = []) : Ordered first (log ++ [a]) s := by
  constructor
  all_goals
    intro scope
    rw [winners_snoc, hnone, List.append_nil]
  · exact h.ascending scope
  · exact h.latest scope

theorem eq_or_lt_getLast {l : List Winner} {last : Winner}
    (h : l.Pairwise fun a b => a.createdAt < b.createdAt) (hlast : l.getLast? = some last) :
    ∀ w ∈ l, w = last ∨ w.createdAt < last.createdAt := by
  obtain ⟨before, rfl⟩ := List.getLast?_eq_some_iff.1 hlast
  rw [List.pairwise_append] at h
  intro w hw
  rcases List.mem_append.1 hw with hw | hw
  · exact .inr (h.2.2 w hw last (List.mem_singleton_self last))
  · exact .inl (List.mem_singleton.1 hw)

/-- No winner that a scope has had is later than the current one. -/
theorem Ordered.eq_or_lt (h : Ordered first log s) {scope : Scope} {current : Winner}
    (hcurrent : s.winner? scope = some current) :
    ∀ w ∈ winners first scope log, w = current ∨ w.createdAt < current.createdAt :=
  eq_or_lt_getLast (h.ascending scope) ((h.latest scope).symm.trans hcurrent)

theorem Ordered.lt_of_later (h : Ordered first log s) {scope : Scope} {t : Int64}
    (hlater : s.Later scope t) : ∀ w ∈ winners first scope log, w.createdAt < t := by
  intro w hw
  have hcurrent := (h.latest scope).trans (List.getLast?_eq_some_getLast (List.ne_nil_of_mem hw))
  rcases h.eq_or_lt hcurrent w hw with heq | hlt
  · rw [heq]
    exact hlater _ hcurrent
  · exact Int64.lt_trans hlt (hlater _ hcurrent)

theorem Ordered.accept (h : Ordered first log s) {client : ι} {c : Candidate}
    (hlater : s.Later c.scope c.document.createdAt) :
    Ordered first (log ++ [.committed client c (.ok (s.seat c.scope c.winner))])
      (s.accept c.scope c.winner) := by
  constructor
  all_goals
    intro scope
    rw [winners_snoc, commits_ok]
    by_cases hscope : c.scope = scope
  · subst hscope
    rw [if_pos rfl, List.pairwise_append]
    refine ⟨h.ascending c.scope, List.pairwise_singleton _ _, fun w hw new hnew => ?_⟩
    cases List.mem_singleton.1 hnew
    exact h.lt_of_later hlater w hw
  · rw [if_neg hscope, List.append_nil]
    exact h.ascending scope
  · subst hscope
    rw [if_pos rfl, Store.winner?_accept_self, List.getLast?_concat]
  · rw [if_neg hscope, List.append_nil, Store.winner?_accept_of_ne _ (Ne.symm hscope)]
    exact h.latest scope

end Order

section Clients

variable [DecidableEq ι] {save : Snapshot → StateM σ (Except Snapshot.SaveError Unit)}
  {first s s' s'' : State ι σ} {log : List (Action ι)} {a : Action ι} {client : ι}
  {c c' : Candidate} {result : Except Store.ReplaceError Winner}

/-! ### One commit -/

/-- What a commit comes to: it is refused for its time, it cannot be counted, it cannot be saved, or
it takes effect. -/
theorem commit_cases (h : Step save s (.committed client c result) s') :
    (∃ current, s.store.winner? c.scope = some current ∧
      c.document.createdAt ≤ current.createdAt ∧
      result = .error (.notNewer c.scope c.document.createdAt current.createdAt) ∧
      s'.store = s.store ∧ s'.world = s.world) ∨
    s.store.Later c.scope c.document.createdAt ∧
      (¬s.store.Room ∧ result = .error .exhausted ∧ s'.store = s.store ∧ s'.world = s.world ∨
        s.store.Room ∧
          ((∃ e, result = .error (.unsaved e) ∧ s'.store = s.store) ∨
            result = .ok (s.store.seat c.scope c.winner) ∧
              s'.store = s.store.accept c.scope c.winner)) := by
  cases h with
  | commit _ hpending hrun => exact Store.replace_cases hrun

theorem refusedForTime_iff (h : Step save s (.committed client c result) s') :
    RefusedForTime result ↔ ¬s.store.Later c.scope c.document.createdAt := by
  rcases commit_cases h with ⟨current, hcurrent, hle, rfl, -⟩ | ⟨hlater, hcases⟩
  · refine ⟨fun _ hlater => ?_, fun _ => ⟨_, _, _, rfl⟩⟩
    exact Int64.not_le.2 (hlater current hcurrent) hle
  · refine ⟨?_, fun hnot => absurd hlater hnot⟩
    rintro ⟨scope, candidate, current, hresult⟩
    rcases hcases with ⟨-, rfl, -⟩ | ⟨-, ⟨e, rfl, -⟩ | ⟨rfl, -⟩⟩ <;> cases hresult

theorem refused_of_le (h : Step save s (.committed client c result) s') {current : Winner}
    (hcurrent : s.store.winner? c.scope = some current)
    (hle : c.document.createdAt ≤ current.createdAt) :
    (∃ reason, told result = .error (.failed (.storage reason))) ∧ s'.store = s.store ∧
      s'.world = s.world := by
  rcases commit_cases h with ⟨-, -, -, rfl, hsame⟩ | ⟨hlater, -⟩
  · exact ⟨⟨_, rfl⟩, hsame⟩
  · exact absurd hle (Int64.not_le.2 (hlater current hcurrent))

/-- A comparison and a commit of one client without a step in between come to the same. -/
theorem accepts_iff_not_refused (harbitrate : Step save s (.arbitrated client c) s')
    (hcommit : Step save s' (.committed client c' result) s'') :
    c' = c ∧ (c.answer.isOk = true ↔ ¬RefusedForTime result) := by
  have hrefused := refusedForTime_iff hcommit
  cases harbitrate with
  | arbitrate _ hfree scope d =>
    cases hcommit with
    | commit _ hpending hrun =>
      cases (Function.update_self client _ s.pending).symm.trans hpending
      refine ⟨rfl, (arbitrate_isOk s.store scope d).trans ?_⟩
      rw [hrefused, not_not]

/-! ### All steps -/

theorem Ordered.step {first : Store} (h : Ordered first log s.store) (hstep : Step save s a s') :
    Ordered first (log ++ [a]) s'.store := by
  cases a with
  | arbitrated client c =>
    cases hstep
    exact h.keep fun _ => rfl
  | committed client c result =>
    rcases commit_cases hstep with ⟨_, -, -, rfl, hstore, -⟩ | ⟨hlater, hcases⟩
    · rw [hstore]
      exact h.keep fun _ => rfl
    · rcases hcases with ⟨-, rfl, hstore, -⟩ | ⟨-, ⟨e, rfl, hstore⟩ | ⟨rfl, hstore⟩⟩
      · rw [hstore]
        exact h.keep fun _ => rfl
      · rw [hstore]
        exact h.keep fun _ => rfl
      · rw [hstore]
        exact h.accept hlater

theorem ordered_run (h : Run save first log s) : Ordered first.store log s.store := by
  induction h with
  | start => exact ordered_start first.store
  | step _ hstep ih => exact ih.step hstep

/-- What was committed is what the documents of the clients bring. -/
theorem presents_run (h : Run save first log s) {w : Winner}
    (hmem : .committed client c (.ok w) ∈ log) : w.Presents c.scope c.document := by
  induction h with
  | start => cases hmem
  | step _ hstep ih =>
    rcases List.mem_append.1 hmem with hmem | hmem
    · exact ih hmem
    · cases List.mem_singleton.1 hmem
      rcases commit_cases hstep with ⟨_, -, -, hresult, -⟩ | ⟨-, hcases⟩
      · cases hresult
      · rcases hcases with ⟨-, hresult, -⟩ | ⟨-, ⟨e, hresult, -⟩ | ⟨hresult, -⟩⟩
        · cases hresult
        · cases hresult
        · cases hresult
          exact Store.presents_seat _ c.scope c.document

/-! ### Deployments as clients -/

/-- Whether a deployment that takes the place of a client on the shared store makes the steps of
this client: it compares its document as the client does and goes on if the answer lets it, and it
commits its document as the client does and ends as the client is told. -/
structure DeploysAs (save : Snapshot → StateM σ (Except Snapshot.SaveError Unit))
    (env : Surroundings (StateM σ)) (s : State ι σ) (client : ι) : Prop where
  compares : ∀ (q : Pipeline.Progress) (scope : Scope) (d : Document),
    q.pipeline.store = s.store → q.record.stage = .validating → s.pending client = none →
    ∃ c s' t w, Step save s (.arbitrated client c) s' ∧ c.scope = scope ∧ c.document = d ∧
      Pipeline.exec (Pipeline.contend env scope d) q s.world =
        (((c.answer.map fun _ => ()).mapError .failed, q.entered .arbitrating t), w)
  commits : ∀ (q : Pipeline.Progress) (c : Candidate),
    q.pipeline.store = s.store → s.pending client = some c →
    ∃ result s', Step save s (.committed client c result) s' ∧
      Pipeline.exec (Pipeline.commit env c.scope c.document) q s.world =
        (((told result).map fun _ => (),
          { q with pipeline := { q.pipeline with store := s'.store } }), s'.world)

theorem exec_contend (env : Surroundings (StateM σ)) (scope : Scope) (d : Document)
    {q : Pipeline.Progress} (hq : q.record.stage = .validating) (w : σ) :
    ∃ t w', Pipeline.exec (Pipeline.contend env scope d) q w =
      ((((arbitrate q.pipeline.store scope d).map fun _ => ()).mapError .failed,
        q.entered .arbitrating t), w') := by
  have hstep : q.record.stage.canBecome .arbitrating = true := by rw [hq]; rfl
  refine ⟨(env.now.run w).1, (env.now.run w).2, ?_⟩
  unfold Pipeline.contend
  rw [Pipeline.exec_bind_ok (Pipeline.exec_enter env hstep w),
    Pipeline.exec_bind_ok (Pipeline.exec_get _ _)]
  cases hdecide : arbitrate q.pipeline.store scope d with
  | ok superseded => exact Pipeline.exec_bind_ok (Pipeline.exec_orFail_of_ok hdecide _ _)
  | error failure => exact Pipeline.exec_bind_error (Pipeline.exec_orFail_of_error hdecide _ _)

theorem exec_commit (env : Surroundings (StateM σ)) (scope : Scope) (d : Document)
    (q : Pipeline.Progress) {w w' : σ} {result : Except Store.ReplaceError Winner} {store : Store}
    (h : (q.pipeline.store.replace env.save scope (.ofDocument scope d)).run w =
      ((result, store), w')) :
    Pipeline.exec (Pipeline.commit env scope d) q w =
      (((told result).map fun _ => (),
        { q with pipeline := { q.pipeline with store := store } }), w') := by
  unfold Pipeline.commit
  rw [Pipeline.exec_bind_ok (Pipeline.exec_get q w),
    Pipeline.exec_bind_ok (Pipeline.exec_ask_of_run h q)]
  cases result with
  | ok _ => rfl
  | error e => cases e <;> rfl

theorem deploysAs {env : Surroundings (StateM σ)} (hsave : env.save = save) (s : State ι σ)
    (client : ι) : DeploysAs save env s client where
  compares q scope d hstore hq hfree := by
    obtain ⟨t, w, hrun⟩ := exec_contend env scope d hq s.world
    rw [hstore] at hrun
    exact ⟨_, _, t, w, .arbitrate client hfree scope d, rfl, rfl, hrun⟩
  commits q c hstore hpending := by
    rcases hrun : (s.store.replace save c.scope c.winner).run s.world with ⟨⟨result, store⟩, w⟩
    refine ⟨result, _, .commit client hpending hrun, ?_⟩
    rw [← hstore, ← hsave] at hrun
    exact exec_commit env c.scope c.document q hrun

/-- In every interleaving of comparisons and commits of any number of clients, with writes that fail
at any point:

* The winners that a scope has had, the one at the start and those that were committed, have come in
  the strict order of their times; they are what the documents of the clients bring.
* The current winner of a scope is the last of them, so the latest.
* A commit that is not later than the current winner is refused and changes nothing, whatever the
  comparison came to before.
* A comparison and a commit without a step in between come to the same.
* The steps are those of deployments that share the store. -/
theorem commits_keep_order (save : Snapshot → StateM σ (Except Snapshot.SaveError Unit))
    (first : Store) (w : σ) (h : Run save (.start first w) log s) :
    (∀ scope, ((winners first scope log).map Winner.createdAt).Pairwise (· < ·)) ∧
    (∀ client c w, .committed client c (.ok w) ∈ log → w.Presents c.scope c.document) ∧
    (∀ scope, s.store.winner? scope = (winners first scope log).getLast? ∧
      ∀ current, s.store.winner? scope = some current →
        ∀ w ∈ winners first scope log, w = current ∨ w.createdAt < current.createdAt) ∧
    (∀ client c result s' current, Step save s (.committed client c result) s' →
      s.store.winner? c.scope = some current → c.document.createdAt ≤ current.createdAt →
      (∃ reason, told result = .error (.failed (.storage reason))) ∧ s'.store = s.store ∧
        s'.world = s.world) ∧
    (∀ client c c' result s' s'', Step save s (.arbitrated client c) s' →
      Step save s' (.committed client c' result) s'' →
      c' = c ∧ (c.answer.isOk = true ↔ ¬RefusedForTime result)) ∧
    ∀ (env : Surroundings (StateM σ)) client, env.save = save → DeploysAs save env s client := by
  have hordered := ordered_run h
  refine ⟨fun scope => ?_, fun _ _ _ => presents_run h, fun scope => ⟨hordered.latest scope, ?_⟩,
    fun _ _ _ _ _ hstep hcurrent => refused_of_le hstep hcurrent,
    fun _ _ _ _ _ _ => accepts_iff_not_refused, fun _ client hsave => deploysAs hsave s client⟩
  · exact List.pairwise_map.2 (hordered.ascending scope)
  · exact fun _ hcurrent => hordered.eq_or_lt hcurrent

end Clients

/-- Two clients find no winner, and the one with the older document commits last. -/
theorem outdated_answer_refused :
    let scope : Scope := ⟨"thinggroup/a"⟩
    let newer : Candidate := ⟨scope, Pipeline.bare "d2" "thinggroup/a" 2, .ok none⟩
    let older : Candidate := ⟨scope, Pipeline.bare "d1" "thinggroup/a" 1, .ok none⟩
    ∃ log s result s', Run Store.unsaved (.start .empty ()) log s ∧
      Step Store.unsaved s (.committed true older result) s' ∧
      (.arbitrated true older ∈ log ∧ .arbitrated false newer ∈ log) ∧
      (∃ reason, told result = .error (.failed (.storage reason))) ∧ s'.store = s.store := by
  intro scope newer older
  have hstart : Run Store.unsaved (.start .empty ()) [] (.start .empty () : State Bool Unit) :=
    .start
  have hfirst := hstart.step (.arbitrate true rfl scope older.document)
  have hsecond := hfirst.step (.arbitrate false rfl scope newer.document)
  have hnewer := hsecond.step (.commit false rfl rfl)
  obtain ⟨-, -, -, hrefused, -⟩ := commits_keep_order Store.unsaved .empty () hnewer
  refine ⟨_, _, _, _, hnewer, .commit true rfl rfl, ⟨.head _, .tail _ (.head _)⟩, ?_⟩
  obtain ⟨htold, hsame, -⟩ :=
    hrefused true older _ _ _ (.commit true rfl rfl) rfl (by decide +kernel)
  exact ⟨htold, hsame⟩

end Rollout.Racing
