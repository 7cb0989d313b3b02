import Rollout.Proofs.Invocation
import Rollout.Proofs.Printing

/-!
# Whole commands

A command line that runs deployments reads all files first and changes nothing if one of them is no
text.  Otherwise it is a session on the contents of the files, with a record for each of them in
their order, and it prints these records.  The command lines that follow print the winners that the
session has left, and what they come to.
-/

namespace Rollout

/-! ### Actions that keep a property -/

namespace Storage

variable {σ α β : Type} {P : σ → Prop} {files : Files (StateM σ)} {directory path tag : String}

/-- Whether an action keeps a property of the world. -/
def Keeps (P : σ → Prop) (x : StateM σ α) : Prop := ∀ w, P w → P (x.run w).2

theorem Keeps.bind {x : StateM σ α} {f : α → StateM σ β} (hx : Keeps P x)
    (hf : ∀ a, Keeps P (f a)) : Keeps P (x >>= f) := by
  intro w hw
  have hnext := hf (x.run w).1 (x.run w).2 (hx w hw)
  exact hnext

theorem keeps_pure (a : α) : Keeps P (pure a : StateM σ α) := fun _ hw => hw

/-- An action that keeps all properties leaves the world as it is. -/
theorem run_of_keeps {x : StateM σ α} (h : ∀ P, Keeps P x) (w : σ) :
    x.run w = ((x.run w).1, w) :=
  Prod.ext rfl (h (· = w) w rfl)

/-- Whether looking at files changes nothing. -/
structure Looks (files : Files (StateM σ)) : Prop where
  isThere : ∀ path w, ((files.isThere path).run w).2 = w
  read : ∀ path w, ((files.read path).run w).2 = w

theorem Looks.keeps_readText (h : Looks files) (path : String) : Keeps P (readText files path) := by
  have hread : Keeps P (files.read path) := fun w hw => (h.read path w).symm ▸ hw
  refine hread.bind fun result => ?_
  cases result with
  | error e => exact keeps_pure _
  | ok bytes =>
    dsimp only
    cases Text.decode? bytes <;> exact keeps_pure _

theorem Looks.keeps_load (h : Looks files) (path : String) : Keeps P (Config.load files path) := by
  have hthere : Keeps P (files.isThere path) := fun w hw => (h.isThere path w).symm ▸ hw
  refine hthere.bind fun there => ?_
  cases there with
  | false => exact keeps_pure _
  | true =>
    refine (h.keeps_readText path).bind fun result => ?_
    cases result <;> exact keeps_pure _

/-- Whether a directory can be made or is there. -/
def Makes (files : Files (StateM σ)) (directory : String) (w : σ) : Prop :=
  ((files.makeDirectory directory).run w).1 = .ok ()

/-- What opening a state again relies on: its directory can still be made after all that is done to
save a state. -/
structure Lasts (files : Files (StateM σ)) (directory path temporary : String) : Prop where
  makeDirectory : ∀ other, Keeps (Makes files directory) (files.makeDirectory other)
  write : ∀ bytes, Keeps (Makes files directory) (files.write temporary bytes)
  rename : Keeps (Makes files directory) (files.rename temporary path)

theorem Lasts.save (h : Lasts files directory path (Snapshot.temporary path tag))
    (state : Snapshot) : Keeps (Makes files directory) (Snapshot.save files path tag state) := by
  refine (h.makeDirectory _).bind fun made => ?_
  cases made with
  | error e => exact keeps_pure _
  | ok _ =>
    refine (h.write _).bind fun written => ?_
    cases written with
    | error e => exact keeps_pure _
    | ok _ =>
      refine h.rename.bind fun renamed => ?_
      cases renamed with
      | error e => exact keeps_pure _
      | ok _ => exact keeps_pure _

end Storage

/-- Whether all that is asked of the surroundings keeps a property of the world. -/
structure Surroundings.Keeps {σ : Type} (env : Surroundings (StateM σ)) (P : σ → Prop) : Prop where
  now : Storage.Keeps P env.now
  groups : Storage.Keeps P env.groups
  save : ∀ state, Storage.Keeps P (env.save state)
  apply : ∀ plan, Storage.Keeps P (env.apply plan)

section Histories

variable {σ : Type} {env : Surroundings (StateM σ)} {P : σ → Prop}

theorem History.keeps (henv : env.Keeps P) {w w' : σ} {log : List Event}
    (h : History env w log w') (hw : P w) : P w' := by
  induction h with
  | start => exact hw
  | now _ ih => exact henv.now _ ih
  | groups _ ih => exact henv.groups _ ih
  | save _ state ih => exact henv.save state _ ih
  | apply _ plan ih => exact henv.apply plan _ ih

theorem Pipeline.keeps_worldAfter (henv : env.Keeps P) (p : Pipeline) {w : σ}
    (ds : List Deployment) (hw : P w) : P (worldAfter env p w ds) := by
  induction ds generalizing p w with
  | nil => exact hw
  | cons d ds ih =>
    exact ih (Turn.next env p ⟨d, w⟩) ((journal_history env d p w).keeps henv hw)

/-- Where the groups and the component manager answer as they are expected to, only a state that
could not be saved is a surprise. -/
theorem Pipeline.expected_of_saved {groups : NameSet} {answers : Plan → Except ApplyFailure Unit}
    (hgroups : ∀ w, (env.groups.run w).1 = groups)
    (happly : ∀ plan w, ((env.apply plan).run w).1 = answers plan) {p : Pipeline}
    {turns : List (Turn σ)}
    (hsaved : ∀ events ∈ journals env p turns, ∀ state e, Event.save state (.error e) ∉ events) :
    ∀ events ∈ journals env p turns, ∀ e ∈ events, e.Expected groups answers := by
  intro events hevents e he
  have hgenuine := genuine_journals env p turns events hevents e he
  cases e with
  | groups answer =>
    obtain ⟨w, rfl⟩ := hgenuine
    exact hgroups w
  | save state answer =>
    cases answer with
    | ok _ => rfl
    | error e => exact absurd he (hsaved events hevents state e)
  | apply plan answer =>
    obtain ⟨w, rfl⟩ := hgenuine
    exact happly plan w

theorem Pipeline.Steady.saved {groups : NameSet} (h : Steady env groups) (p : Pipeline)
    (turns : List (Turn σ)) :
    ∀ events ∈ journals env p turns, ∀ state e, Event.save state (.error e) ∉ events := by
  intro events hevents state e he
  obtain ⟨w, hw⟩ := genuine_journals env p turns events hevents _ he
  rw [h.save] at hw
  cases hw

end Histories

namespace Command

variable {σ : Type}

/-! ### What is relied on -/

namespace Host

/-- What the commands rely on in a host that keeps its state in a directory: the file of states is
shown as it is and replaced as a whole, neither the clock nor the making of the directory touches
it, and the directory can still be made later. -/
structure Sound (host : Host (StateM σ)) (content : σ → Storage.Contents) (directory : String) :
    Prop where
  shows : Storage.Shows host.files content (Agent.snapshotPath directory)
  swaps : Storage.Swaps host.files content (Agent.snapshotPath directory)
    (Snapshot.temporary (Agent.snapshotPath directory) host.tag)
  makeDirectory : ∀ w, content ((host.files.makeDirectory directory).run w).2
    (Agent.snapshotPath directory) = content w (Agent.snapshotPath directory)
  lasts : Storage.Lasts host.files directory (Agent.snapshotPath directory)
    (Snapshot.temporary (Agent.snapshotPath directory) host.tag)
  clock : ∀ w, content (host.now.run w).2 (Agent.snapshotPath directory) =
    content w (Agent.snapshotPath directory)
  clockLasts : Storage.Keeps (Storage.Makes host.files directory) host.now

variable {host : Host (StateM σ)} {content : σ → Storage.Contents} {directory : String}
  {c : Config}

theorem Sound.opens (h : host.Sound content directory) :
    Session.Opens host.files content directory := ⟨h.shows, h.makeDirectory⟩

theorem Sound.keepsFile (h : host.Sound content directory) (c : Config) :
    Pipeline.KeepsFile (surroundings host c directory) content (Agent.snapshotPath directory) :=
  ⟨⟨host.files, host.tag, h.swaps, rfl⟩, h.clock, fun _ => rfl, fun _ _ => rfl⟩

theorem Sound.keeps (h : host.Sound content directory) (c : Config) :
    (surroundings host c directory).Keeps (Storage.Makes host.files directory) :=
  ⟨h.clockLasts, Storage.keeps_pure _, h.lasts.save, fun _ => Storage.keeps_pure _⟩

/-- What a file holds as a text. -/
def textOf (host : Host (StateM σ)) (w : σ) (path : String) : Except Storage.TextError String :=
  ((Storage.readText host.files path).run w).1

/-- Whether a command line with a path of the configuration file, or without one, finds a
configuration. -/
def Finds (host : Host (StateM σ)) (path? : Option String) (w : σ) (c : Config) : Prop :=
  ∃ path, path?.elim host.environment.configPath .ok = .ok path ∧
    ((Config.load host.files path).run w).1 = .ok c

end Host

/-! ### Reading files -/

/-- The messages about a file that is no text. -/
def unread (path : String) (e : Storage.TextError) : List String :=
  ["Failed to read deployment document: " ++ path, e.message]

theorem run_mapM {α β : Type} {f : α → ExceptT (List String) (StateM σ) β}
    {g : α → Except (List String) β} {w : σ} (h : ∀ x, (f x).run.run w = (g x, w))
    (xs : List α) : (xs.mapM f).run.run w = (xs.mapM g, w) := by
  induction xs with
  | nil => rfl
  | cons x xs ih =>
    have hfirst := h x
    rw [List.mapM_cons, List.mapM_cons]
    cases hx : g x with
    | error e =>
      rw [hx] at hfirst
      exact run_bind_error hfirst
    | ok y =>
      rw [hx] at hfirst
      refine (run_bind_ok hfirst).trans ?_
      cases hxs : xs.mapM g with
      | error e =>
        rw [hxs] at ih
        exact run_bind_error ih
      | ok ys =>
        rw [hxs] at ih
        exact run_bind_ok ih

variable {host : Host (StateM σ)}

/-- Files are read one after another, up to the first that is no text, and nothing changes. -/
theorem run_readAll (hlooks : Storage.Looks host.files) (paths : List String) (w : σ) :
    (readAll host paths).run.run w =
      (paths.mapM fun path => (host.textOf w path).mapError (unread path), w) := by
  refine run_mapM (fun path => ?_) paths
  have hread := run_ask (Storage.run_of_keeps (fun _ => hlooks.keeps_readText path) w)
  refine (run_bind_ok hread).trans ?_
  rw [Host.textOf]
  cases ((Storage.readText host.files path).run w).1 <;> rfl

theorem mapM_of_error {paths : List String} {w : σ} {path : String} (hpath : path ∈ paths)
    {e : Storage.TextError} (htext : host.textOf w path = .error e) :
    ∃ path ∈ paths, ∃ e, host.textOf w path = .error e ∧
      (paths.mapM fun path => (host.textOf w path).mapError (unread path)) =
        .error (unread path e) := by
  induction paths with
  | nil => cases hpath
  | cons first paths ih =>
    cases hfirst : host.textOf w first with
    | error e' =>
      refine ⟨first, List.mem_cons_self, e', hfirst, ?_⟩
      rw [List.mapM_cons, hfirst]
      rfl
    | ok text =>
      have hlater : path ∈ paths := by
        rcases List.mem_cons.1 hpath with rfl | hlater
        · rw [hfirst] at htext
          cases htext
        · exact hlater
      obtain ⟨other, hother, e', he', hread⟩ := ih hlater
      refine ⟨other, List.mem_cons_of_mem _ hother, e', he', ?_⟩
      rw [List.mapM_cons, hfirst, hread]
      rfl

theorem mapM_of_texts {paths texts : List String} {w : σ}
    (h : paths.map (host.textOf w) = texts.map .ok) :
    (paths.mapM fun path => (host.textOf w path).mapError (unread path)) = .ok texts := by
  induction paths generalizing texts with
  | nil =>
    rw [List.map_eq_nil_iff.1 h.symm]
    rfl
  | cons path paths ih =>
    obtain ⟨text, texts, rfl, hpath, hpaths⟩ := List.map_eq_cons_iff.1 h.symm
    rw [List.mapM_cons, ← hpath, ih hpaths.symm]
    rfl

/-! ### Command lines -/

/-- A command line that finds a configuration is carried out with it. -/
theorem run_execute (hlooks : Storage.Looks host.files) {arguments : List String}
    {path? : Option String} {action : Action}
    (harguments : Invocation.ofArguments arguments = .ok ⟨path?, action⟩) {w : σ} {c : Config}
    (hfinds : host.Finds path? w c) :
    (execute host arguments).run w =
      match (carryOut host c action).run.run w with
      | (.ok response, w') => (response, w')
      | (.error chain, w') => (⟨1, "", errorText chain⟩, w') := by
  obtain ⟨path, hpath, hloaded⟩ := hfinds
  have hload := Storage.run_of_keeps (fun _ => hlooks.keeps_load path) w
  rw [hloaded] at hload
  have hinvoke : (invoke host ⟨path?, action⟩).run.run w = (carryOut host c action).run.run w := by
    have hconfig : (orChain (m := StateM σ) Config.LoadError.chain (.ok c)).run.run w =
      (.ok c, w) := rfl
    cases path? with
    | none =>
      have hfound : (orChain (m := StateM σ) (fun e => [Environment.Missing.message e])
          host.environment.configPath).run.run w = (.ok path, w) := by
        rw [show host.environment.configPath = .ok path from hpath]
        rfl
      refine (run_bind_ok hfound).trans ?_
      refine (run_bind_ok (run_ask hload)).trans ?_
      exact run_bind_ok hconfig
    | some given =>
      cases hpath
      have hgiven : (pure path : ExceptT (List String) (StateM σ) String).run.run w =
        (.ok path, w) := rfl
      refine (run_bind_ok hgiven).trans ?_
      refine (run_bind_ok (run_ask hload)).trans ?_
      exact run_bind_ok hconfig
  rw [execute, harguments]
  dsimp only
  rcases hrun : (carryOut host c action).run.run w with ⟨result, w'⟩
  rw [hrun] at hinvoke
  rw [Store.run_bind_of_run hinvoke]
  cases result <;> rfl

/-! ### Looking at the stored state -/

variable {content : σ → Storage.Contents} {directory : String} {c : Config}

/-- Whether a response is the winners of a store in the order of their acceptance. -/
def Response.ListsWinners (response : Response) (store : Store) : Prop :=
  ∃ output winners, response = ⟨0, output, ""⟩ ∧ Lists output "winners" winners ∧
    EffectiveSet.StablySorted store.winners.values winners

/-- Whether a response is what the winners of a store come to: the components in the order of their
names, each with its version, and their fingerprint. -/
def Response.HoldsMerge (response : Response) (store : Store) : Prop :=
  ∃ output set, response = ⟨0, output, ""⟩ ∧ EffectiveSet.Merges store.winners.values set ∧
    Holds output [("fingerprint", .string set.fingerprint),
      ("components", .object (set.versions.entries.map fun c => (c.1, .string c.2)))]

/-- Whether the command lines that look at the stored state show a store, on any host with the same
files and environment. -/
structure Shown (host : Host (StateM σ)) (c : Config) (w : σ) (store : Store) : Prop where
  winners : ∀ (host' : Host (StateM σ)) (arguments : List String) (path? : Option String),
    host'.files = host.files → host'.environment = host.environment →
    Invocation.ofArguments arguments = .ok ⟨path?, .winners .json⟩ → host'.Finds path? w c →
    ((execute host' arguments).run w).1.ListsWinners store
  effective : ∀ (host' : Host (StateM σ)) (arguments : List String) (path? : Option String),
    host'.files = host.files → host'.environment = host.environment →
    Invocation.ofArguments arguments = .ok ⟨path?, .effective .json⟩ → host'.Finds path? w c →
    ((execute host' arguments).run w).1.HoldsMerge store

theorem run_openState_of_opens (hopens : Session.Opens host.files content directory)
    (hdirectory : c.resolvedDirectory host.environment = .ok directory) {w : σ}
    (hmade : Storage.Makes host.files directory w) {store : Store}
    (hstore : Store.ofContent (Agent.snapshotPath directory)
      (content w (Agent.snapshotPath directory)) = .ok store) :
    ∃ w', (openState host c).run.run w = (.ok store, w') := by
  obtain ⟨w', -, hopen, -⟩ := Session.run_of_opens (c := c) hopens hmade hstore
  refine ⟨w', ?_⟩
  rw [run_openState host hdirectory, hopen]
  rfl

theorem shown_of_opens (hlooks : Storage.Looks host.files)
    (hopens : Session.Opens host.files content directory)
    (hdirectory : c.resolvedDirectory host.environment = .ok directory) {w : σ}
    (hmade : Storage.Makes host.files directory w) {store : Store}
    (hstore : Store.ofContent (Agent.snapshotPath directory)
      (content w (Agent.snapshotPath directory)) = .ok store) :
    Shown host c w store := by
  constructor
  all_goals
    intro host' arguments path? hfiles henvironment harguments hfinds
    rw [← hfiles] at hlooks hopens hmade
    rw [← henvironment] at hdirectory
    obtain ⟨w', hopen⟩ := run_openState_of_opens hopens hdirectory hmade hstore
    rw [run_execute hlooks harguments hfinds, carryOut, run_bind_ok hopen]
  · exact ⟨_, _, rfl, lists_winnersJson store.inOrder, EffectiveSet.stablySorted_inOrder _⟩
  · exact ⟨_, _, rfl, store.merges_effective, holds_effectiveJson store.effective⟩

/-! ### Running deployments -/

/-- The deployments of documents that arrive on a channel. -/
def arrived (channel : Channel) (texts : List String) : List Deployment :=
  texts.map fun text => ⟨channel, .text text⟩

theorem run_carryOut {paths : List String} {channelName : String} {channel : Channel}
    (format : Format) (hchannel : Channel.ofInput? channelName = some channel) {w : σ}
    {texts : List String} (hread : (readAll host paths).run.run w = (.ok texts, w))
    {records : List Record} {w' : σ}
    (hwork : (work host c (arrived channel texts)).run.run w = (.ok records, w')) :
    ∃ output, Shows output records format ∧
      (carryOut host c (.run paths channelName format)).run.run w =
        (.ok ⟨if ∀ r ∈ records, r.stage = .succeeded then 0 else 1, output, ""⟩, w') := by
  have hcode : (if records.all fun r => r.stage = .succeeded then 0 else 1) =
      if ∀ r ∈ records, r.stage = .succeeded then 0 else 1 := by
    simp only [List.all_eq_true, decide_eq_true_eq]
  rw [carryOut, hchannel, ← hcode]
  cases format with
  | table =>
    exact ⟨_, tabulates_recordsTable records, (run_bind_ok hread).trans (run_bind_ok hwork)⟩
  | json =>
    exact ⟨_, lists_recordsJson, (run_bind_ok hread).trans (run_bind_ok hwork)⟩

theorem run_carryOut_unread {paths : List String} {channelName : String} {channel : Channel}
    {format : Format} (hchannel : Channel.ofInput? channelName = some channel) {w : σ}
    {chain : List String} (hread : (readAll host paths).run.run w = (.error chain, w)) :
    (carryOut host c (.run paths channelName format)).run.run w = (.error chain, w) := by
  have hfound : (pure channel : ExceptT (List String) (StateM σ) Channel).run.run w =
    (.ok channel, w) := rfl
  rw [carryOut, hchannel]
  exact (run_bind_ok hfound).trans (run_bind_error hread)

/-- A state that opens was there before, and its directory can still be made. -/
theorem Host.Sound.opened (h : host.Sound content directory) {store : Store} {w w' : σ}
    (hopen : (Agent.openStore host.files directory).run w = (.ok store, w')) :
    Store.ofContent (Agent.snapshotPath directory)
        (content w' (Agent.snapshotPath directory)) = .ok store ∧
      Storage.Makes host.files directory w' := by
  have hmade : Storage.Makes host.files directory w := by
    rcases hmake : (host.files.makeDirectory directory).run w with ⟨result, w₁⟩
    cases result with
    | ok _ => exact congrArg Prod.fst hmake
    | error e =>
      rw [Agent.openStore, Store.run_bind_of_run hmake] at hopen
      cases hopen
  have hload : Storage.Keeps (Storage.Makes host.files directory)
      (Store.load host.files (Agent.snapshotPath directory)) := by
    intro w₁ hw₁
    rw [Store.run_load h.shows]
    exact hw₁
  have hlasts : Storage.Keeps (Storage.Makes host.files directory)
      (Agent.openStore host.files directory) := by
    refine (h.lasts.makeDirectory directory).bind fun result => ?_
    cases result with
    | error e => exact Storage.keeps_pure _
    | ok _ => exact hload.bind fun _ => Storage.keeps_pure _
  have hmade' := hlasts w hmade
  obtain ⟨w₁, hkept, hrun⟩ := Session.run_openStore h.opens hmade
  rw [hopen] at hrun hmade'
  obtain ⟨hstore, rfl⟩ := Prod.mk.inj hrun
  refine ⟨?_, hmade'⟩
  rw [hkept]
  cases hcontent : Store.ofContent (Agent.snapshotPath directory)
      (content w (Agent.snapshotPath directory)) with
  | error e =>
    rw [hcontent] at hstore
    cases hstore
  | ok opened =>
    rw [hcontent] at hstore
    cases hstore
    rfl

/-- What a command line leaves that has run deployments from a pipeline. -/
structure Ran (host : Host (StateM σ)) (content : σ → Storage.Contents) (directory : String)
    (c : Config) (arguments : List String) (format : Format) (ds : List Deployment) (w : σ)
    (p : Pipeline) (done : Session.Done σ) : Prop where
  /-- There is one record for each deployment, in their order, as the pipeline makes them, and all
  of them are printed. -/
  answer : ∃ records output, done.outcomes.map Pipeline.Outcome.result = records.map .ok ∧
    List.Forall₂ Pipeline.EndOf ds records ∧ Shows output records format ∧
    (execute host arguments).run w =
      (⟨if ∀ r ∈ records, r.stage = .succeeded then 0 else 1, output, ""⟩, done.world)
  /-- If all states could be saved, the pipeline does the same elsewhere and at other times. -/
  elsewhere : (∀ events ∈ done.journals, ∀ state e, Event.save state (.error e) ∉ events) →
    ∀ {σ' : Type} (env : Surroundings (StateM σ')) (w' : σ'), Pipeline.Steady env c.groups →
      (∀ plan u, ((env.apply plan).run u).1 = .ok ()) →
      done.account = (Session.Done.inTurn env p w' ds).account
  stored : Store.ofContent (Agent.snapshotPath directory)
    (content done.world (Agent.snapshotPath directory)) = .ok done.pipeline.store
  shown : Shown host c done.world done.pipeline.store

theorem ran_of_opens (hlooks : Storage.Looks host.files) (hsound : host.Sound content directory)
    (hdirectory : c.resolvedDirectory host.environment = .ok directory)
    {arguments paths : List String} {path? : Option String} {channelName : String}
    {format : Format} (harguments : Invocation.ofArguments arguments =
      .ok ⟨path?, .run paths channelName format⟩)
    {channel : Channel} (hchannel : Channel.ofInput? channelName = some channel) {w w' : σ}
    (hfinds : host.Finds path? w c) {texts : List String}
    (htexts : paths.map (host.textOf w) = texts.map .ok) {store : Store}
    (hopen : (Agent.openStore host.files directory).run w = (.ok store, w')) :
    let env := surroundings host c directory
    let p := Pipeline.start (Agent.policy c) store c.groups
    let ds := arrived channel texts
    Pipeline.HasRoom env p (Pipeline.inTurn env p w' ds) →
      Ran host content directory c arguments format ds w p (.inTurn env p w' ds) := by
  intro env p ds hroom
  have hread := run_readAll hlooks paths w
  rw [mapM_of_texts htexts] at hread
  have hcounted : (Session.mk env ds).HasRoom host.files directory c w := by
    intro store' w'' hopen'
    obtain ⟨hstore, rfl⟩ := Prod.mk.inj (hopen'.symm.trans hopen)
    cases hstore
    exact hroom
  have hwork := run_work host hdirectory ds hcounted
  have hsession : (Session.mk env ds).run host.files directory c w = .ok (.inTurn env p w' ds) := by
    rw [Session.run, hopen]
  rw [hsession] at hwork
  obtain ⟨records, hrecords, hrun⟩ := hwork
  obtain ⟨output, hshows, hcarried⟩ := run_carryOut format hchannel hread hrun
  have hexecute := run_execute hlooks harguments hfinds
  rw [hcarried] at hexecute
  obtain ⟨hstore, hmade⟩ := hsound.opened hopen
  have hstored : Store.ofContent (Agent.snapshotPath directory)
      (content (Pipeline.worldAfter env p w' ds) (Agent.snapshotPath directory)) =
        .ok (Pipeline.run env p (Pipeline.inTurn env p w' ds)).store :=
    Pipeline.opens_run (hsound.keepsFile c) ds hstore (.opened hstore)
  refine ⟨⟨records, output, hrecords, ?_, hshows, hexecute⟩, ?_, hstored, ?_⟩
  · obtain ⟨own, hown, hends⟩ := Pipeline.exists_records env hroom
    have hsame : own = records :=
      List.map_injective_iff.2 (fun _ _ => Except.ok.inj) (hown.symm.trans hrecords)
    rw [Pipeline.deployment_inTurn] at hends
    exact hsame ▸ hends
  · intro hsaved σ' env' u hsteady happly
    have hexpected := Pipeline.expected_of_saved (fun _ => rfl) (fun _ _ => rfl) hsaved
    have hexpected' := Pipeline.expected_of_saved hsteady.groups happly
      (hsteady.saved p (Pipeline.inTurn env' p u ds))
    have halike := Pipeline.alike_inTurn rfl ds w' u hexpected hexpected'
    simp only [Session.Done.account, Session.Done.inTurn, halike.records, halike.journals,
      halike.run]
  · have hmade' := Pipeline.keeps_worldAfter (hsound.keeps c) p ds hmade
    exact shown_of_opens hlooks hsound.opens hdirectory hmade' hstored

/-- Running deployments from the command line is all or nothing on reading: if one of the files is
no text, nothing changes.  Otherwise, if the stored state opens, the contents of the files are taken
through the pipeline in their order, and the command lines that follow show what is left. -/
theorem run_all_or_nothing (hlooks : Storage.Looks host.files) {arguments paths : List String}
    {path? : Option String} {channelName : String} {format : Format}
    (harguments : Invocation.ofArguments arguments = .ok ⟨path?, .run paths channelName format⟩)
    {channel : Channel} (hchannel : Channel.ofInput? channelName = some channel) {w : σ}
    (hfinds : host.Finds path? w c) :
    (∀ path ∈ paths, ∀ e, host.textOf w path = .error e →
      ∃ path ∈ paths, ∃ e, host.textOf w path = .error e ∧
        (execute host arguments).run w = (⟨1, "", errorText (unread path e)⟩, w)) ∧
    ∀ texts, paths.map (host.textOf w) = texts.map .ok →
      ∀ directory content, c.resolvedDirectory host.environment = .ok directory →
        host.Sound content directory →
        ∀ store w', (Agent.openStore host.files directory).run w = (.ok store, w') →
          let env := surroundings host c directory
          let p := Pipeline.start (Agent.policy c) store c.groups
          let ds := arrived channel texts
          Pipeline.HasRoom env p (Pipeline.inTurn env p w' ds) →
            Ran host content directory c arguments format ds w p (.inTurn env p w' ds) := by
  refine ⟨?_, ?_⟩
  · intro path hpath e htext
    obtain ⟨other, hother, e', htext', hall⟩ := mapM_of_error hpath htext
    have hread := run_readAll hlooks paths w
    have hexecute := run_execute hlooks harguments hfinds
    rw [hall] at hread
    rw [run_carryOut_unread hchannel hread] at hexecute
    exact ⟨other, hother, e', htext', hexecute⟩
  · intro texts htexts directory content hdirectory hsound store w' hopen
    exact ran_of_opens hlooks hsound hdirectory harguments hchannel hfinds htexts hopen

/-! ### A device with a shelf -/

def shelfHost : Host (StateM (NameMap (List UInt8))) :=
  ⟨Session.shelf, pure .epoch, ⟨.ofList [("HOME", "/h")], none⟩, "1"⟩

theorem looks_shelf : Storage.Looks Session.shelf where
  isThere _ _ := rfl
  read path u := by
    simp only [Session.shelf, StateT.run]
    cases u.find? path <;> rfl

theorem sound_shelfHost {directory : String}
    (h : Agent.snapshotPath directory ≠ Snapshot.temporary (Agent.snapshotPath directory) "1") :
    shelfHost.Sound Session.onShelf directory where
  shows := Session.shows_shelf _
  swaps := Session.swaps_shelf h
  makeDirectory _ := rfl
  lasts := ⟨fun _ _ _ => rfl, fun _ _ _ => rfl, fun _ _ => rfl⟩
  clock _ := rfl
  clockLasts := Storage.keeps_pure _

/-- A document, a text that is no document, and a file that is no text. -/
def threeFiles : NameMap (List UInt8) :=
  .ofList [("a.json", Text.encode "\x7b\"id\": \"d1\", \"targetGroup\": \"g\"\x7d"),
    ("b.json", Text.encode "none"), ("c.json", [0xff])]

/-- The record of the one document says that it is in force, and the record of the other text that
it could not be read. -/
theorem run_all_or_nothing_on_shelf :
    let run (paths : List String) := (execute shelfHost ("run" :: paths)).run threeFiles
    let w : Winner := ⟨⟨"g"⟩, "d1", "g", 0, 0, .empty⟩
    (run ["a.json", "c.json"]).2 = threeFiles ∧
      (∃ records output, (run ["a.json", "b.json"]).1 = ⟨1, output, ""⟩ ∧
        Tabulates output records ∧
        records.map (fun r => (r.deployment, r.stage)) =
          [("d1", .succeeded), ("<unknown>", .rejected)]) ∧
      ∃ output, Lists output "winners" [w] ∧
        ((execute shelfHost ["winners", "-f", "json"]).run (run ["a.json", "b.json"]).2).1 =
          ⟨0, output, ""⟩ := by
  intro run w
  have hlooks : Storage.Looks shelfHost.files := looks_shelf
  have hchannel : Channel.ofInput? "local" = some .direct := by decide +kernel
  have hfinds : shelfHost.Finds none threeFiles .standard := ⟨_, rfl, by decide +kernel⟩
  refine ⟨?_, ?_⟩
  · have harguments : Invocation.ofArguments ["run", "a.json", "c.json"] =
        .ok ⟨none, .run ["a.json", "c.json"] "local" .table⟩ := by decide +kernel
    have hbroken : shelfHost.textOf threeFiles "c.json" = .error .notText := by decide +kernel
    obtain ⟨path, -, e, -, hrun⟩ :=
      (run_all_or_nothing hlooks harguments hchannel hfinds).1 "c.json" (by decide) _ hbroken
    exact congrArg Prod.snd hrun
  · have harguments : Invocation.ofArguments ["run", "a.json", "b.json"] =
        .ok ⟨none, .run ["a.json", "b.json"] "local" .table⟩ := by decide +kernel
    have htexts : ["a.json", "b.json"].map (shelfHost.textOf threeFiles) =
        ["\x7b\"id\": \"d1\", \"targetGroup\": \"g\"\x7d", "none"].map .ok := by decide +kernel
    have hdirectory : Config.standard.resolvedDirectory shelfHost.environment =
        .ok "/h/.local/state/arbor" := by decide +kernel
    have hopen : (Agent.openStore shelfHost.files "/h/.local/state/arbor").run threeFiles =
        (.ok .empty, threeFiles) := Prod.ext (by decide +kernel) (by decide +kernel)
    have hran := (run_all_or_nothing hlooks harguments hchannel hfinds).2 _ htexts _ _ hdirectory
      (sound_shelfHost (by decide +kernel)) _ _ hopen
      (Pipeline.hasRoom_of_places (by rw [Pipeline.length_inTurn]; decide))
    obtain ⟨records, output, hrecords, -, hshows, hrun⟩ := hran.answer
    have hworld : (run ["a.json", "b.json"]).2 = _ := congrArg Prod.snd hrun
    dsimp only at hworld
    have hfinds' : shelfHost.Finds none (run ["a.json", "b.json"]).2 .standard :=
      ⟨_, rfl, by decide +kernel⟩
    have hshown := hran.shown
    rw [← hworld] at hshown
    obtain ⟨listing, winners, hresponse, hlists, hsorted⟩ :=
      hshown.winners shelfHost ["winners", "-f", "json"] none rfl rfl (by decide +kernel) hfinds'
    refine ⟨⟨records, output, ?_, hshows, ?_⟩, listing, ?_, hresponse⟩
    · have hcode : (run ["a.json", "b.json"]).1.exitCode = 1 := by decide +kernel
      have hanswer := congrArg Prod.fst hrun
      rw [← hcode, hanswer]
    · let told (r : Record) := (r.deployment, r.stage)
      have hends :
          (records.map (.ok : Record → Except Pipeline.Stop Record)).map (Except.map told) =
            [("d1", .succeeded), ("<unknown>", .rejected)].map .ok := by
        rw [← hrecords]
        decide +kernel
      rw [List.map_map] at hends
      exact List.map_injective_iff.2 (fun _ _ => Except.ok.inj) (List.map_map.trans hends)
    · have hwinner : winners.Perm [w] := hsorted.perm.symm.trans (.of_eq (by decide +kernel))
      exact List.perm_singleton.1 hwinner ▸ hlists

end Command
end Rollout
