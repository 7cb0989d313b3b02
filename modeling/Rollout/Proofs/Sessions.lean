import Rollout.Agent
import Rollout.Proofs.Effects
import Rollout.Proofs.Foresight

/-!
# Restarts

A session opens the stored state and works on deployments until the agent ends.  All that one
session leaves to the next is the file of states.  It is enough: deployments that are worked on in
several sessions have the same records and plans as in a single one, and leave the same winners.
-/

namespace Rollout

namespace Pipeline

/-! ### The file after a turn -/

variable {σ : Type} {env : Surroundings (StateM σ)} {content : σ → Storage.Contents} {path : String}

/-- After a turn the file holds the store that the turn leaves, unless nothing was saved. -/
theorem Verdict.fileAfter_events (before : Option (Except Storage.FileError (List UInt8)))
    (p : Pipeline) (v : Verdict) :
    (fileAfter before (v.events p) = before ∧ (v.next p).store = p.store) ∨
      fileAfter before (v.events p) = some (.ok (v.next p).store.toSnapshot.toBytes) := by
  by_cases haccepted : v.Accepted
  · obtain ⟨d, groups, place, pass, answer, rfl⟩ := haccepted
    refine .inr ?_
    have hview : savedStates ((accepted d groups place pass answer).events p) =
        (committed p place.scope d).store.toSnapshot ::
          savedStates (pass.events place.scope (committed p place.scope d)) := by
      refine (view_lookUp savedStates (fun _ _ => rfl) d groups _).trans ?_
      simp [savedStates]
    rw [fileAfter, hview]
    cases pass with
    | off => rfl
    | unsaved read e => rfl
    | done read =>
      simp only [Pass.events, next, Pass.next]
      by_cases hnothing : (committed p place.scope d).store.dropped
          (Pass.keeps place.scope (committed p place.scope d) read) = []
      · rw [if_pos hnothing, Store.keepOnly_eq_self hnothing]
        rfl
      · rw [if_neg hnothing]
        rfl
  · refine .inl ⟨?_, ?_⟩
    · rw [fileAfter,
        view_of_not_accepted savedStates (fun _ _ => rfl) (fun _ _ _ => rfl) p haccepted]
      rfl
    · cases v with
      | accepted d groups place pass answer =>
        exact absurd ⟨d, groups, place, pass, answer, rfl⟩ haccepted
      | _ => rfl

/-- A file that opens as the store still does so after a turn. -/
theorem opens_next (hkeeps : KeepsFile env content path) {p : Pipeline} {t : Turn σ}
    (hopens : Store.ofContent path (content t.world path) = .ok p.store)
    (hsound : (t.next env p).store.Sound) :
    Store.ofContent path (content (t.after env p) path) = .ok (t.next env p).store := by
  obtain ⟨v, hends⟩ := t.ends env p
  have hcontent : content (t.after env p) path = fileAfter (content t.world path) (v.events p) := by
    rw [← hends.events]
    exact content_of_history hkeeps (journal_history env t.deployment p t.world)
  rw [hends.next] at hsound ⊢
  rw [hcontent]
  rcases v.fileAfter_events (content t.world path) p with ⟨hkept, hsame⟩ | hwritten
  · rw [hkept, hsame]
    exact hopens
  · rw [hwritten]
    exact Store.ofContent_toBytes ((Store.flaw?_toSnapshot _).2 hsound) path

theorem opens_run (hkeeps : KeepsFile env content path) {p : Pipeline} {w : σ}
    (ds : List Deployment) (hopens : Store.ofContent path (content w path) = .ok p.store)
    (hreachable : p.store.Reachable) :
    Store.ofContent path (content (worldAfter env p w ds) path) =
      .ok (run env p (inTurn env p w ds)).store := by
  induction ds generalizing p w with
  | nil => exact hopens
  | cons d ds ih =>
    have hnext : (Turn.next env p ⟨d, w⟩).store.Reachable := reachable_next hreachable
    exact ih (opens_next hkeeps hopens hnext.sound) hnext

end Pipeline

/-! ### Sessions -/

/-- What a session is about: the deployments that it works on, in surroundings of its own. -/
structure Session (σ : Type) where
  env : Surroundings (StateM σ)
  deployments : List Deployment

namespace Session

variable {σ : Type}

/-- What comes of deployments. -/
structure Done (σ : Type) where
  outcomes : List Pipeline.Outcome
  journals : List (List Event)
  pipeline : Pipeline
  world : σ

/-- What the device tells about deployments, times aside, and what is in force in the end. -/
structure Account where
  records : List (Except Pipeline.Stop Record)
  plans : List Plan
  store : Store
  effective : EffectiveSet

namespace Done

/-- What comes of deployments that are taken up in a row. -/
def inTurn (env : Surroundings (StateM σ)) (p : Pipeline) (w : σ) (ds : List Deployment) : Done σ :=
  let turns := Pipeline.inTurn env p w ds
  ⟨Pipeline.outcomes env p turns, Pipeline.journals env p turns, Pipeline.run env p turns,
    Pipeline.worldAfter env p w ds⟩

def followedBy (done more : Done σ) : Done σ :=
  ⟨done.outcomes ++ more.outcomes, done.journals ++ more.journals, more.pipeline, more.world⟩

def account (done : Done σ) : Account where
  records := done.outcomes.map fun o => o.result.map Record.untimed
  plans := done.journals.flatMap Pipeline.plans
  store := done.pipeline.store
  effective := done.pipeline.store.effective

theorem inTurn_append (env : Surroundings (StateM σ)) (p : Pipeline) (w : σ)
    (ds ds' : List Deployment) :
    inTurn env p w (ds ++ ds') =
      (inTurn env p w ds).followedBy
        (inTurn env (inTurn env p w ds).pipeline (inTurn env p w ds).world ds') := by
  simp only [inTurn, followedBy, Pipeline.inTurn_append, Pipeline.outcomes_append,
    Pipeline.journals_append, Pipeline.run_append, Pipeline.worldAfter_append]

theorem account_followedBy {done done' more more' : Done σ} (h : done.account = done'.account)
    (hmore : more.account = more'.account) :
    (done.followedBy more).account = (done'.followedBy more').account := by
  simp only [account, Account.mk.injEq] at h hmore
  simp only [account, followedBy, List.map_append, List.flatMap_append, h, hmore]

end Done

section Runs

variable (files : Storage.Files (StateM σ)) (directory : String) (c : Config)

def run (s : Session σ) (w : σ) : Except Agent.OpenError (Done σ) :=
  match (Agent.openStore files directory).run w with
  | (.error e, _) => .error e
  | (.ok store, w) => .ok (.inTurn s.env (.start (Agent.policy c) store c.groups) w s.deployments)

/-- What comes of sessions that follow one another. -/
def runAll : Session σ → List (Session σ) → σ → Except Agent.OpenError (Done σ)
  | s, [], w => s.run files directory c w
  | s, next :: rest, w => do
    let done ← s.run files directory c w
    let more ← runAll next rest done.world
    return done.followedBy more

/-- Whether sessions that follow one another bring no surprises: the directory of the state can be
made, and so are all answers of the surroundings. -/
def Calm (answers : Plan → Except ApplyFailure Unit) : List (Session σ) → σ → Prop
  | [], _ => True
  | s :: rest, w => ((files.makeDirectory directory).run w).1 = .ok () ∧
    ∀ done, s.run files directory c w = .ok done →
      (∀ events ∈ done.journals, ∀ e ∈ events, e.Expected c.groups answers) ∧
        Calm answers rest done.world

/-- Whether there is a place for every acceptance in a session. -/
def HasRoom (s : Session σ) (w : σ) : Prop :=
  ∀ store w', (Agent.openStore files directory).run w = (.ok store, w') →
    let p := Pipeline.start (Agent.policy c) store c.groups
    Pipeline.HasRoom s.env p (Pipeline.inTurn s.env p w' s.deployments)

end Runs

/-- What opening relies on in the file operations: they show the file of states as it is, and making
its directory leaves it so. -/
structure Opens (files : Storage.Files (StateM σ)) (content : σ → Storage.Contents)
    (directory : String) : Prop where
  shows : Storage.Shows files content (Agent.snapshotPath directory)
  makeDirectory : ∀ w, content ((files.makeDirectory directory).run w).2
    (Agent.snapshotPath directory) = content w (Agent.snapshotPath directory)

variable {files : Storage.Files (StateM σ)} {content : σ → Storage.Contents} {directory : String}
  {c : Config} {answers : Plan → Except ApplyFailure Unit}

theorem run_openStore (hopens : Opens files content directory) {w : σ}
    (hmade : ((files.makeDirectory directory).run w).1 = .ok ()) :
    ∃ w', content w' (Agent.snapshotPath directory) = content w (Agent.snapshotPath directory) ∧
      (Agent.openStore files directory).run w =
        ((Store.ofContent (Agent.snapshotPath directory)
          (content w (Agent.snapshotPath directory))).mapError .snapshot, w') := by
  rcases hmake : (files.makeDirectory directory).run w with ⟨answer, w'⟩
  have hkept := hopens.makeDirectory w
  rw [hmake] at hmade hkept
  cases hmade
  refine ⟨w', hkept, ?_⟩
  rw [Agent.openStore, Store.run_bind_of_run hmake]
  dsimp only
  rw [Store.run_bind_of_run (Store.run_load hopens.shows w'), hkept]
  rfl

theorem run_of_opens (hopens : Opens files content directory) {w : σ}
    (hmade : ((files.makeDirectory directory).run w).1 = .ok ()) {store : Store}
    (hstore : Store.ofContent (Agent.snapshotPath directory)
      (content w (Agent.snapshotPath directory)) = .ok store) :
    ∃ w', content w' (Agent.snapshotPath directory) = content w (Agent.snapshotPath directory) ∧
      (Agent.openStore files directory).run w = (.ok store, w') ∧
      ∀ s : Session σ, s.run files directory c w =
        .ok (.inTurn s.env (.start (Agent.policy c) store c.groups) w' s.deployments) := by
  obtain ⟨w', hkept, hopen⟩ := run_openStore hopens hmade
  rw [hstore] at hopen
  refine ⟨w', hkept, hopen, fun s => ?_⟩
  rw [run, hopen]
  rfl

/-! ### Sessions one after another -/

theorem start_of_eq {p : Pipeline} {policy : Policy} {groups : NameSet}
    (hpolicy : p.policy = policy) (hobserved : p.observed = groups) :
    p = .start policy p.store groups := by
  cases hpolicy
  cases hobserved
  rfl

theorem account_alike {env env' : Surroundings (StateM σ)} {groups : NameSet} {p : Pipeline}
    {ds : List Deployment} {w w' : σ}
    (h : Pipeline.Alike env env' groups p (Pipeline.inTurn env p w ds)
      (Pipeline.inTurn env' p w' ds)) :
    (Done.inTurn env p w ds).account = (Done.inTurn env' p w' ds).account := by
  simp only [Done.account, Done.inTurn, h.records, h.journals, h.run]

/-- Sessions that start from a stored state give the same account as work without interruption. -/
theorem account_runAll (hopens : Opens files content directory) {rest : List (Session σ)}
    {first : Session σ} {env : Surroundings (StateM σ)} {p : Pipeline} {w w' : σ}
    (hkeeps : ∀ s ∈ first :: rest, Pipeline.KeepsFile s.env content (Agent.snapshotPath directory))
    (hfile : Store.ofContent (Agent.snapshotPath directory)
      (content w (Agent.snapshotPath directory)) = .ok p.store)
    (hpolicy : p.policy = Agent.policy c) (hobserved : p.observed = c.groups)
    (hreachable : p.store.Reachable) (hcalm : Calm files directory c answers (first :: rest) w)
    {ds : List Deployment} (hds : ds = (first :: rest).flatMap deployments)
    (hcalm' : ∀ events ∈ (Done.inTurn env p w' ds).journals, ∀ e ∈ events,
      e.Expected c.groups answers) :
    ∃ done, runAll files directory c first rest w = .ok done ∧
      done.account = (Done.inTurn env p w' ds).account := by
  induction rest generalizing first p w w' ds with
  | nil =>
    obtain ⟨w₁, -, -, hrun⟩ := run_of_opens (c := c) hopens hcalm.1 hfile
    rw [← start_of_eq hpolicy hobserved] at hrun
    obtain ⟨hexpected, -⟩ := hcalm.2 _ (hrun first)
    simp only [List.flatMap_cons, List.flatMap_nil, List.append_nil] at hds
    subst hds
    exact ⟨_, hrun first,
      account_alike (Pipeline.alike_inTurn hobserved first.deployments w₁ w' hexpected hcalm')⟩
  | cons next rest ih =>
    obtain ⟨w₁, hkept, -, hrun⟩ := run_of_opens (c := c) hopens hcalm.1 hfile
    rw [← start_of_eq hpolicy hobserved] at hrun
    obtain ⟨hexpected, hlater⟩ := hcalm.2 _ (hrun first)
    rw [← hkept] at hfile
    -- the work without interruption is cut where the first session ends
    rw [List.flatMap_cons] at hds
    subst hds
    rw [Done.inTurn_append] at hcalm' ⊢
    obtain ⟨hcalm₁, hcalm₂⟩ := List.forall_mem_append.1 hcalm'
    have halike := Pipeline.alike_inTurn hobserved first.deployments w₁ w' hexpected hcalm₁
    have hfile' := Pipeline.opens_run (hkeeps first List.mem_cons_self) first.deployments hfile
      hreachable
    have hreachable' := Pipeline.reachable_run first.env
      (Pipeline.inTurn first.env p w₁ first.deployments) hreachable
    have hobserved' := halike.observed
    rw [halike.run] at hfile' hreachable' hobserved'
    obtain ⟨more, hmore, haccount⟩ := ih (fun s hs => hkeeps s (List.mem_cons_of_mem _ hs)) hfile'
      ((Pipeline.policy_run env p _).trans hpolicy) hobserved' hreachable' hlater rfl hcalm₂
    refine ⟨(Done.inTurn first.env p w₁ first.deployments).followedBy more, ?_,
      Done.account_followedBy (account_alike halike) haccount⟩
    rw [runAll, hrun first]
    dsimp only [bind, Except.bind]
    rw [show runAll files directory c next rest
      (Done.inTurn first.env p w₁ first.deployments).world = .ok more from hmore]
    rfl

theorem records_inTurn {env : Surroundings (StateM σ)} {p : Pipeline} {w : σ} {ds : List Deployment}
    (hroom : Pipeline.HasRoom env p (Pipeline.inTurn env p w ds)) :
    ∃ records, (Done.inTurn env p w ds).account.records = records.map .ok ∧
      List.Forall₂ Pipeline.EndOf ds records := by
  obtain ⟨records, hrecords, hown⟩ := Pipeline.exists_records env hroom
  rw [Pipeline.deployment_inTurn] at hown
  refine ⟨records.map Record.untimed, ?_, ?_⟩
  · have hmapped := congrArg (List.map (Except.map Record.untimed)) hrecords
    rw [List.map_map, List.map_map] at hmapped
    refine hmapped.trans ?_
    rw [List.map_map]
    rfl
  · refine List.forall₂_map_right_iff.2 (hown.imp fun d r hend => ?_)
    exact ⟨hend.final, hend.deployment, hend.channel⟩

/-- Sessions bring no surprises where the surroundings never do. -/
theorem calm_of_steady {sessions : List (Session σ)}
    (hmake : ∀ w, ((files.makeDirectory directory).run w).1 = .ok ())
    (hsteady : ∀ s ∈ sessions, Pipeline.Steady s.env c.groups)
    (hanswers : ∀ s ∈ sessions, ∀ plan w, ((s.env.apply plan).run w).1 = answers plan) (w : σ) :
    Calm files directory c answers sessions w := by
  induction sessions generalizing w with
  | nil => trivial
  | cons s rest ih =>
    rw [List.forall_mem_cons] at hsteady hanswers
    refine ⟨hmake w, fun done hdone => ⟨?_, ih hsteady.2 hanswers.2 done.world⟩⟩
    intro events hevents e he
    have hgenuine : Event.Genuine s.env e := by
      unfold run at hdone
      split at hdone
      · cases hdone
      · cases hdone
        exact Pipeline.genuine_journals s.env _ _ events hevents e he
    cases e with
    | groups answer => exact hsteady.1.groups_eq hgenuine
    | save state answer =>
      obtain ⟨u, rfl⟩ := hgenuine
      exact hsteady.1.save state u
    | apply plan answer =>
      obtain ⟨u, rfl⟩ := hgenuine
      exact hanswers.1 plan u

/-! ### A device with a shelf -/

/-- Files on a shelf: any path may have a file, and there are no directories that may be missing. -/
def shelf : Storage.Files (StateM (NameMap (List UInt8))) where
  isThere path := fun u => ((u.find? path).isSome, u)
  read path := fun u =>
    match u.find? path with
    | some bytes => (.ok bytes, u)
    | none => (.error .notFound, u)
  makeDirectory _ := pure (.ok ())
  write path bytes := fun u => (.ok (), u.insert path bytes)
  rename source target := fun u =>
    match u.find? source with
    | some bytes => (.ok (), (u.filter fun path _ => path ≠ source).insert target bytes)
    | none => (.error .notFound, u)

def onShelf (u : NameMap (List UInt8)) : Storage.Contents := fun path => (u.find? path).map .ok

theorem shows_shelf (path : String) : Storage.Shows shelf onShelf path where
  isThere u := by
    have hrun : (shelf.isThere path).run u = ((u.find? path).isSome, u) := rfl
    rw [hrun, onShelf, Option.isSome_map]
  read {u found} h := by
    obtain ⟨bytes, hfile, rfl⟩ := Option.map_eq_some_iff.1 h
    simp only [shelf, StateT.run, hfile]

theorem swaps_shelf {path temporary : String} (h : path ≠ temporary) :
    Storage.Swaps shelf onShelf path temporary where
  makeDirectory _ := rfl
  write bytes u := by
    have hfind : (u.insert temporary bytes).find? path = u.find? path := by
      rw [NameMap.find?_insert, if_neg h]
    exact congrArg (Option.map Except.ok) hfind
  written {bytes u u'} hwrite := by
    cases hwrite
    simp [onShelf, NameMap.find?_insert]
  renamed {u u'} hrename := by
    simp only [shelf, StateT.run] at hrename
    split at hrename
    · rename_i bytes hfile
      cases hrename
      simp [onShelf, NameMap.find?_insert, hfile]
    · cases hrename
  kept {u e u'} hrename := by
    simp only [shelf, StateT.run] at hrename
    split at hrename
    · cases hrename
    · cases hrename
      rfl

/-- Surroundings in which states are saved to a shelf and nothing else happens. -/
def shelved (groups : NameSet) : Surroundings (StateM (NameMap (List UInt8))) where
  now := pure .epoch
  groups := pure groups
  save := Snapshot.save shelf (Agent.snapshotPath "state") "1"
  apply _ := pure (.ok ())

theorem keepsFile_shelved (groups : NameSet) :
    Pipeline.KeepsFile (shelved groups) onShelf (Agent.snapshotPath "state") :=
  ⟨⟨shelf, "1", swaps_shelf (by decide), rfl⟩, fun _ => rfl, fun _ => rfl, fun _ _ => rfl⟩

theorem save_of_ok {u u₁ u₂ u₃ : σ} {path tag : String} {state : Snapshot}
    (hdirectory : (files.makeDirectory (Path.parent path)).run u = (.ok (), u₁))
    (hwrite : (files.write (Snapshot.temporary path tag) state.toBytes).run u₁ = (.ok (), u₂))
    (hrename : (files.rename (Snapshot.temporary path tag) path).run u₂ = (.ok (), u₃)) :
    (Snapshot.save files path tag state).run u = (.ok (), u₃) := by
  rw [Snapshot.save, Store.run_bind_of_run hdirectory]
  dsimp only
  rw [Store.run_bind_of_run hwrite]
  dsimp only
  rw [Store.run_bind_of_run hrename]
  rfl

theorem steady_shelved (groups : NameSet) : Pipeline.Steady (shelved groups) groups := by
  refine ⟨fun _ => rfl, fun state u => ?_⟩
  let path := Agent.snapshotPath "state"
  let written := u.insert (Snapshot.temporary path "1") state.toBytes
  have hrename : ∃ u', (shelf.rename (Snapshot.temporary path "1") path).run written =
      (.ok (), u') := by
    simp [shelf, StateT.run, written, NameMap.find?_insert]
  obtain ⟨u', hrename⟩ := hrename
  have hsave : ((shelved groups).save state).run u = (.ok (), u') := save_of_ok rfl rfl hrename
  rw [hsave]

/-! ### Cutting work into sessions -/

/-- A file that cannot be opened fails the first session and all that would follow. -/
theorem runAll_of_error (hopens : Opens files content directory) {w : σ}
    (hmade : ((files.makeDirectory directory).run w).1 = .ok ()) {e : Snapshot.LoadError}
    (hstore : Store.ofContent (Agent.snapshotPath directory)
      (content w (Agent.snapshotPath directory)) = .error e)
    (first : Session σ) (rest : List (Session σ)) :
    runAll files directory c first rest w = .error (.snapshot e) := by
  obtain ⟨w', -, hopen⟩ := run_openStore hopens hmade
  rw [hstore] at hopen
  have hfirst : first.run files directory c w = .error (.snapshot e) := by
    rw [run, hopen]
    rfl
  cases rest with
  | nil => rw [runAll, hfirst]
  | cons next rest =>
    rw [runAll, hfirst]
    rfl

/-- Cutting the work on deployments into sessions changes nothing that the device tells: however the
deployments are spread over sessions that follow one another, the records, times aside, the plans
and what is in force in the end are those of a single session that starts from the same file.  All
sessions get to their end if that file can be opened, with a record of each deployment. -/
theorem restarts_change_nothing (hopens : Opens files content directory)
    (first whole : Session σ) (rest : List (Session σ))
    (hdeployments : whole.deployments = (first :: rest).flatMap deployments)
    (hkeeps : ∀ s ∈ whole :: first :: rest,
      Pipeline.KeepsFile s.env content (Agent.snapshotPath directory)) {w w' : σ}
    (hfile : content w (Agent.snapshotPath directory) = content w' (Agent.snapshotPath directory))
    (hcalm : Calm files directory c answers (first :: rest) w)
    (hcalm' : Calm files directory c answers [whole] w')
    (hroom : whole.HasRoom files directory c w') :
    (runAll files directory c first rest w).map Done.account =
        (whole.run files directory c w').map Done.account ∧
      ∀ store, Store.ofContent (Agent.snapshotPath directory)
          (content w (Agent.snapshotPath directory)) = .ok store →
        ∃ done records, runAll files directory c first rest w = .ok done ∧
          done.account.records = records.map .ok ∧
          List.Forall₂ Pipeline.EndOf whole.deployments records := by
  cases hstore : Store.ofContent (Agent.snapshotPath directory)
      (content w (Agent.snapshotPath directory)) with
  | error e =>
    have hstore' := hstore
    rw [hfile] at hstore'
    have hwhole : whole.run files directory c w' = .error (.snapshot e) :=
      runAll_of_error hopens hcalm'.1 hstore' whole []
    rw [runAll_of_error hopens hcalm.1 hstore, hwhole]
    exact ⟨rfl, nofun⟩
  | ok store =>
    have hstore' := hstore
    rw [hfile] at hstore'
    obtain ⟨w₁, -, hopen, hrun⟩ := run_of_opens (c := c) hopens hcalm'.1 hstore'
    obtain ⟨hexpected, -⟩ := hcalm'.2 _ (hrun whole)
    obtain ⟨done, hdone, haccount⟩ := account_runAll hopens
      (fun s hs => hkeeps s (List.mem_cons_of_mem _ hs)) hstore rfl rfl (.opened hstore) hcalm
      hdeployments hexpected
    obtain ⟨records, hrecords, hown⟩ := records_inTurn (hroom store w₁ hopen)
    rw [← haccount] at hrecords
    refine ⟨?_, fun _ _ => ⟨done, records, hdone, hrecords, hown⟩⟩
    rw [hdone, hrun whole, Except.map, Except.map, haccount]

/-- A document for one group, a restart, and a document for another group. -/
theorem restart_between_documents :
    let c : Config := ⟨some "state", .empty, true, .ofList ["thinggroup/a", "thinggroup/b"]⟩
    let session (d : Document) : Session (NameMap (List UInt8)) :=
      ⟨shelved c.groups, [⟨.jobs, .document d⟩]⟩
    let d := Pipeline.bare "d1" "thinggroup/a" 1
    let d' := Pipeline.bare "d2" "thinggroup/b" 1
    let places (a : Account) := a.store.winners.entries.map fun e => (e.1, e.2.sequence)
    (runAll shelf "state" c (session d) [session d'] .empty).map (fun done => places done.account) =
      .ok [("thinggroup/a", 0), ("thinggroup/b", 1)] := by
  intro c session d d' places
  let whole : Session (NameMap (List UInt8)) :=
    ⟨shelved c.groups, [⟨.jobs, .document d⟩, ⟨.jobs, .document d'⟩]⟩
  have henv : ∀ s ∈ [whole, session d, session d'], s.env = shelved c.groups := by
    simp [whole, session]
  have hopens : Opens shelf onShelf "state" := ⟨shows_shelf _, fun _ => rfl⟩
  have hcalm : ∀ sessions : List (Session (NameMap (List UInt8))),
      (∀ s ∈ sessions, s.env = shelved c.groups) →
      Calm shelf "state" c (fun _ => .ok ()) sessions .empty := by
    intro sessions hsame
    refine calm_of_steady (fun _ => rfl) (fun s hs => ?_) (fun s hs plan w => ?_) NameMap.empty
    · rw [hsame s hs]
      exact steady_shelved c.groups
    · rw [hsame s hs]
      rfl
  have hroom : whole.HasRoom shelf "state" c .empty := by
    intro store w hopen p
    obtain ⟨w', -, hrun⟩ := run_openStore hopens (w := NameMap.empty) rfl
    rw [hopen] at hrun
    cases hrun
    refine Pipeline.hasRoom_of_places ?_
    rw [Pipeline.length_inTurn]
    decide
  have hsame := restarts_change_nothing hopens (session d) whole [session d'] rfl
    (fun s hs => by rw [henv s hs]; exact keepsFile_shelved c.groups) rfl
    (hcalm _ fun s hs => henv s (List.mem_cons_of_mem _ hs))
    (hcalm _ fun s hs => henv s (List.mem_of_mem_take (i := 1) hs)) hroom
  have hplaces : (whole.run shelf "state" c .empty).map (fun done => places done.account) =
      .ok [("thinggroup/a", 0), ("thinggroup/b", 1)] := by
    decide +kernel
  have hmapped := congrArg (Except.map places) hsame.1
  have hmap : ∀ result : Except Agent.OpenError (Done (NameMap (List UInt8))),
      (result.map Done.account).map places = result.map fun done => places done.account := by
    intro result
    cases result <;> rfl
  rw [hmap, hmap, hplaces] at hmapped
  exact hmapped

end Session
end Rollout
