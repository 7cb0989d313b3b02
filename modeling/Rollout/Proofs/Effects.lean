import Rollout.Proofs.Precedence
import Rollout.Proofs.Store.Saving
import Rollout.Proofs.Store.Views

/-!
# What a deployment changes

A deployment that is refused leaves the pipeline, the file of states and the component manager
alone.  One that comes into force makes its document the winner of its scope, leaves every other
winner or drops it in its pass, and hands over one plan, for the winners that are left.  A
deployment that cannot be counted has no record, and it leaves everything alone, too.
-/

namespace Rollout

/-- Whether a winner is made from a document and from nothing else. -/
structure Winner.Presents (w : Winner) (scope : Scope) (d : Document) : Prop where
  scope : w.scope = scope
  deployment : w.deployment = d.id
  target : w.target = d.target
  createdAt : w.createdAt = d.createdAt
  versions : w.versions = d.components
  tagged : ∀ name c, w.components.find? name = some c → c.group = d.target ∧ c.deployment = d.id

theorem Store.presents_seat (s : Store) (scope : Scope) (d : Document) :
    (s.seat scope (.ofDocument scope d)).Presents scope d where
  scope := rfl
  deployment := rfl
  target := rfl
  createdAt := rfl
  versions := Winner.versions_ofDocument scope d
  tagged name c h := by
    have hfind : (Winner.ofDocument scope d).components.find? name = some c := h
    rw [Winner.ofDocument, NameMap.find?_mapValues, Option.map_eq_some_iff] at hfind
    obtain ⟨version, -, rfl⟩ := hfind
    exact ⟨rfl, rfl⟩

/-- Whether a plan has, for a document in its scope, the components that the winners of a store come
to. -/
structure Plan.CarriesOut (plan : Plan) (d : Document) (scope : Scope) (s : Store) : Prop where
  deployment : plan.deployment = d.id
  scope : plan.scope = scope
  components : EffectiveSet.Merges s.winners.values plan.components
  fingerprint : plan.fingerprint = plan.components.fingerprint

theorem Plan.carriesOut_make (d : Document) (scope : Scope) (s : Store) :
    (Plan.make d.id scope s.effective).CarriesOut d scope s where
  deployment := rfl
  scope := rfl
  components := s.merges_effective
  fingerprint := rfl

namespace Pipeline

variable {σ : Type}

/-! ### The file of states -/

/-- Whether a device saves its states to a file that nothing else touches. -/
structure KeepsFile (env : Surroundings (StateM σ)) (content : σ → Storage.Contents)
    (path : String) : Prop where
  save : ∃ files tag, Storage.Swaps files content path (Snapshot.temporary path tag) ∧
    env.save = Snapshot.save files path tag
  now : ∀ w, content (env.now.run w).2 path = content w path
  groups : ∀ w, content (env.groups.run w).2 path = content w path
  apply : ∀ plan w, content ((env.apply plan).run w).2 path = content w path

section File

variable {env : Surroundings (StateM σ)} {content : σ → Storage.Contents} {path : String}

/-- What stands in the file after some events: the last saved state, or what stood there before. -/
def fileAfter (before : Option (Except Storage.FileError (List UInt8))) (events : List Event) :
    Option (Except Storage.FileError (List UInt8)) :=
  match (savedStates events).getLast? with
  | none => before
  | some state => some (.ok state.toBytes)

theorem content_of_history (hkeeps : KeepsFile env content path) {w w' : σ} {log : List Event}
    (h : History env w log w') : content w' path = fileAfter (content w path) log := by
  -- of all that the surroundings are asked, only saving touches the file, and only if it succeeds
  induction h with
  | start => rfl
  | now _ ih => exact (hkeeps.now _).trans ih
  | groups _ ih =>
    rw [hkeeps.groups, ih]
    simp [fileAfter, savedStates]
  | apply _ plan ih =>
    rw [hkeeps.apply, ih]
    simp [fileAfter, savedStates]
  | @save w' log _ state ih =>
    obtain ⟨files, tag, hswaps, hsave⟩ := hkeeps.save
    rw [hsave]
    rcases Snapshot.content_save hswaps state w' with ⟨u, hrun, hcontent⟩ | ⟨e, u, hrun, hcontent⟩
    · rw [hrun, hcontent]
      simp [fileAfter, savedStates]
    · rw [hrun, hcontent, ih]
      simp [fileAfter, savedStates]

end File

/-! ### Plans -/

/-- The plans that were handed to the component manager. -/
def plans (events : List Event) : List Plan :=
  events.filterMap fun
    | .apply plan _ => some plan
    | _ => none

/-! ### Outcomes and their effects -/

/-- Whether a record says that its document did not come into force. -/
def Refused (r : Record) : Prop :=
  r.stage = .rejected ∨ r.stage = .failed ∧ r.detailedStatus = some .storeWriteFailed

theorem not_inForce_of_refused {r : Record} (h : Refused r) : ¬InForce r := by
  rcases h with hstage | ⟨hstage, hstatus⟩
  · rintro (h | ⟨h, -⟩) <;> rw [hstage] at h <;> cases h
  · rintro (h | ⟨-, h⟩)
    · rw [hstage] at h
      cases h
    · rw [hstatus] at h
      cases h

/-- What a turn does that brings nothing into force. -/
structure LeavesAlone (env : Surroundings (StateM σ)) (p : Pipeline) (t : Turn σ) : Prop where
  pipeline : t.next env p = p
  plans : plans (t.events env p) = []
  file : ∀ content path, KeepsFile env content path →
    content (t.after env p) path = content t.world path

/-- What a turn does that brings a document into force in a scope. -/
structure TakesEffect (env : Surroundings (StateM σ)) (p : Pipeline) (t : Turn σ) (scope : Scope)
    (d : Document) : Prop where
  winner : ∃ w, (t.next env p).store.winner? scope = some w ∧ w.Presents scope d
  others : ∀ other, other ≠ scope →
    (t.next env p).store.winner? other = p.store.winner? other ∨
      (t.next env p).store.winner? other = none ∧ p.policy.prunes = true ∧
        Drops other (t.events env p)
  plan : ∃ plan, plans (t.events env p) = [plan] ∧ plan.CarriesOut d scope (t.next env p).store

namespace Verdict

variable {p : Pipeline} {deployment : Deployment} {v : Verdict}

/-- A verdict other than an acceptance leaves only readings of groups and states that were not saved
in the journal. -/
theorem view_of_not_accepted {β : Type} (view : List Event → β)
    (hgroups : ∀ groups events, view (.groups groups :: events) = view events)
    (hsave : ∀ state e events, view (.save state (.error e) :: events) = view events)
    (p : Pipeline) (h : ¬v.Accepted) : view (v.events p) = view [] := by
  cases v with
  | malformed failure => rfl
  | incapable d failure => rfl
  | misplaced d groups failure => exact view_lookUp_only view hgroups d groups
  | stale d groups place current => exact view_lookUp_only view hgroups d groups
  | exhausted d groups place => exact view_lookUp_only view hgroups d groups
  | unsaved d groups place e => exact (view_lookUp view hgroups d groups _).trans (hsave _ e [])
  | accepted d groups place pass answer => exact absurd ⟨d, groups, place, pass, answer, rfl⟩ h

theorem refused_of_not_accepted (hfits : v.Fits p deployment) (hended : v.stop? = none)
    (h : ¬v.Accepted) (history : List (Stage × Calendar.Instant)) :
    Refused (v.record deployment history) := by
  rcases rejected_or_later hfits with ⟨hstage, -⟩ | ⟨d, groups, place, -, -, hv⟩
  · exact .inl hstage
  · rcases hv with rfl | ⟨e, rfl⟩ | ⟨pass, answer, rfl⟩
    · cases hended
    · exact .inr ⟨rfl, rfl⟩
    · exact absurd ⟨d, groups, place, pass, answer, rfl⟩ h

theorem plans_accepted (p : Pipeline) (d : Document) (groups : NameSet) (place : Hierarchy.Place)
    (pass : Pass) (answer : Except ApplyFailure Unit) :
    let v := accepted d groups place pass answer
    plans (v.events p) = [.make d.id place.scope (v.next p).store.effective] := by
  intro v
  refine (view_lookUp plans (fun _ _ => rfl) d groups _).trans ?_
  exact Pass.view_events plans (fun _ _ => rfl) (fun _ _ _ => rfl) place.scope _ pass _

end Verdict

section Turns

variable {env : Surroundings (StateM σ)} {p : Pipeline} {t : Turn σ}

theorem leavesAlone {v : Verdict} (hends : t.Ends env p v) (h : ¬v.Accepted) :
    LeavesAlone env p t where
  pipeline := by
    rcases Verdict.refused_or_accepted hends.fits with ⟨-, hsame⟩ | haccepted
    · exact hends.next.trans hsame
    · exact absurd haccepted h
  plans := by
    rw [hends.events]
    exact Verdict.view_of_not_accepted plans (fun _ _ => rfl) (fun _ _ _ => rfl) p h
  file content path hkeeps := by
    have hcontent := content_of_history hkeeps (journal_history env t.deployment p t.world)
    have hsaved : savedStates (journal env t.deployment p t.world) = [] := by
      have hevents : journal env t.deployment p t.world = v.events p := hends.events
      rw [hevents]
      exact Verdict.view_of_not_accepted savedStates (fun _ _ => rfl) (fun _ _ _ => rfl) p h
    rw [fileAfter, hsaved] at hcontent
    exact hcontent

variable {d : Document} {groups : NameSet} {place : Hierarchy.Place} {pass : Pass}
  {answer : Except ApplyFailure Unit}

theorem plans_of_accepted (hends : t.Ends env p (.accepted d groups place pass answer)) :
    plans (t.events env p) = [.make d.id place.scope (t.next env p).store.effective] := by
  rw [hends.next, hends.events]
  exact Verdict.plans_accepted p d groups place pass answer

theorem takesEffect (hends : t.Ends env p (.accepted d groups place pass answer)) :
    TakesEffect env p t place.scope d where
  winner := by
    rw [hends.next]
    exact ⟨_, Verdict.winner?_next_self p d groups place pass answer,
      p.store.presents_seat place.scope d⟩
  others other hne := by
    obtain ⟨-, -, -, hpass⟩ := hends.fits
    have hbefore := Verdict.winner?_committed_of_ne p d hne
    rw [hends.next, hends.events]
    rcases Pass.kept_or_dropped hpass other with
      hkept | ⟨groups', w, rfl, hprunes, hw, hdropped, hgone⟩
    · exact .inl (hkept.trans hbefore)
    · exact .inr ⟨hgone, hprunes, drops_of_pass hw hdropped groups answer⟩
  plan := ⟨_, plans_of_accepted hends, Plan.carriesOut_make d place.scope _⟩

end Turns

/-- What a deployment changes depends on how its record ends, and it has a record unless there is no
place left to count its acceptance. -/
theorem effects_follow_outcome (env : Surroundings (StateM σ)) (p : Pipeline) (t : Turn σ) :
    ((t.outcome env p).result = .error .exhausted ∧ ¬p.store.Room ∧ LeavesAlone env p t) ∨
    ∃ r, (t.outcome env p).result = .ok r ∧ (Refused r ∨ InForce r) ∧
      (Refused r → LeavesAlone env p t) ∧
      (InForce r → ∃ d scope, t.deployment.document = .ok d ∧ scope = Hierarchy.scopeOf d ∧
        r.scope = some scope ∧ TakesEffect env p t scope d) := by
  obtain ⟨v, hends⟩ := t.ends env p
  cases hstop : v.stop? with
  | some stop =>
    obtain ⟨-, d, groups, place, rfl⟩ := Verdict.stop?_eq_some hstop
    obtain ⟨history, -, hresult⟩ := hends.record
    refine .inl ⟨hresult, hends.fits.2.2, leavesAlone hends ?_⟩
    rintro ⟨d', groups', place', pass, answer, heq⟩
    cases heq
  | none =>
  obtain ⟨history, -, hrecord⟩ := hends.recorded hstop
  refine .inr ⟨_, hrecord, ?_⟩
  by_cases haccepted : v.Accepted
  · obtain ⟨d, groups, place, pass, answer, rfl⟩ := haccepted
    have hforce :
        InForce ((Verdict.accepted d groups place pass answer).record t.deployment history) :=
      Verdict.inForce_accepted d groups place pass answer
    refine ⟨.inr hforce, fun hrefused => absurd hforce (not_inForce_of_refused hrefused),
      fun _ => ?_⟩
    exact ⟨d, place.scope, hends.fits.1.document, Hierarchy.scope_of_place hends.fits.1.place, rfl,
      takesEffect hends⟩
  · have hrefused := Verdict.refused_of_not_accepted hends.fits hstop haccepted history
    exact ⟨.inl hrefused, fun _ => leavesAlone hends haccepted,
      fun hforce => absurd hforce (not_inForce_of_refused hrefused)⟩

/-! ### A device with a disk -/

/-- Surroundings in which states are saved to a disk with planned failures. -/
def onDisk : Surroundings (StateM (List Bool × Storage.Disk)) where
  now := pure .epoch
  groups := pure .empty
  save := Snapshot.save Storage.Disk.files.failing Snapshot.fileName "1"
  apply _ := pure (.ok ())

theorem keepsFile_onDisk :
    KeepsFile onDisk (fun u => Storage.Disk.content u.2) Snapshot.fileName where
  save := by
    have hname : Storage.Disk.Plain Snapshot.fileName := ⟨by decide, by decide⟩
    have htemporary : Storage.Disk.Plain (Snapshot.temporary Snapshot.fileName "1") :=
      ⟨by decide, by decide⟩
    exact ⟨_, _, (Storage.Disk.swaps_files hname htemporary (by decide)).failing, rfl⟩
  now _ := rfl
  groups _ := rfl
  apply _ _ := rfl

/-- A document whose state cannot be renamed into place changes nothing, not even the file.  When
the disk works again, the same document becomes the winner beside that of another group, and the
plan has what both of them ask for. -/
theorem effects_on_disk :
    let other : Winner := ⟨⟨"thinggroup/b"⟩, "d0", "thinggroup/b", 1, 0, .ofList
      [("Own", ⟨"1.0.0", "thinggroup/b", "d0"⟩), ("Shared", ⟨"1.0.0", "thinggroup/b", "d0"⟩)]⟩
    let p := start ⟨.empty, true⟩ (Store.empty.accept other.scope other) .empty
    let d := { bare "d" "thinggroup/a" 1 with components := .ofList [("Shared", "2.0.0")] }
    let broken : Turn (List Bool × Storage.Disk) :=
      ⟨⟨.direct, .document d⟩, [false, false, true], .empty, []⟩
    let working : Turn (List Bool × Storage.Disk) := ⟨⟨.direct, .document d⟩, [], .empty, []⟩
    (broken.next onDisk p = p ∧ plans (broken.events onDisk p) = [] ∧
      Storage.Disk.content (broken.after onDisk p).2 Snapshot.fileName =
        Storage.Disk.content broken.world.2 Snapshot.fileName) ∧
    (working.next onDisk p).store.winner? other.scope = some other ∧
    (∃ w, (working.next onDisk p).store.winner? ⟨"thinggroup/a"⟩ = some w ∧
      w.Presents ⟨"thinggroup/a"⟩ d) ∧
    ∃ plan, plans (working.events onDisk p) = [plan] ∧ plan.deployment = "d" ∧
      plan.scope = ⟨"thinggroup/a"⟩ ∧
      plan.components.versions.find? "Own" = some "1.0.0" ∧
      plan.components.sources.find? "Own" = some ⟨"thinggroup/b"⟩ ∧
      plan.components.versions.find? "Shared" = some "2.0.0" ∧
      plan.components.sources.find? "Shared" = some ⟨"thinggroup/a"⟩ := by
  intro other p d broken working
  have hbroken : ¬BringsIntoForce onDisk p broken ⟨"thinggroup/a"⟩ := by decide +kernel
  have hworking : BringsIntoForce onDisk p working ⟨"thinggroup/a"⟩ := by decide +kernel
  have hroom : p.store.Room := by decide +kernel
  constructor
  · rcases effects_follow_outcome onDisk p broken with
      ⟨-, hfull, -⟩ | ⟨r, hr, hend, hrefused, hforce⟩
    · exact absurd hroom hfull
    have hleft : LeavesAlone onDisk p broken := by
      refine hend.elim hrefused fun hin => absurd ?_ hbroken
      obtain ⟨_, _, hd, rfl, hscope, -⟩ := hforce hin
      cases hd
      exact ⟨r, hr, hin, hscope⟩
    exact ⟨hleft.pipeline, hleft.plans, hleft.file _ _ keepsFile_onDisk⟩
  · rcases effects_follow_outcome onDisk p working with ⟨-, hfull, -⟩ | ⟨r, hr, -, -, hforce⟩
    · exact absurd hroom hfull
    obtain ⟨r', hr', hin, -⟩ := hworking
    cases hr.symm.trans hr'
    obtain ⟨_, _, hd, rfl, -, heffect⟩ := hforce hin
    cases hd
    obtain ⟨plan, hplan, hcarries⟩ := heffect.plan
    have hvalues : (working.next onDisk p).store.winners.values =
        [p.store.seat ⟨"thinggroup/a"⟩ (.ofDocument ⟨"thinggroup/a"⟩ d), other] := by
      decide +kernel
    have hmerges := hcarries.components
    rw [hvalues] at hmerges
    have hown := (hmerges.decided "Own" "1.0.0" ⟨"thinggroup/b"⟩).2
      ⟨other, _, ⟨rfl, by decide +kernel, by decide +kernel⟩, rfl, rfl⟩
    have hshared := (hmerges.decided "Shared" "2.0.0" ⟨"thinggroup/a"⟩).2
      ⟨p.store.seat ⟨"thinggroup/a"⟩ (.ofDocument ⟨"thinggroup/a"⟩ d), _,
        ⟨rfl, by decide +kernel, by decide +kernel⟩, rfl, rfl⟩
    refine ⟨?_, heffect.winner, plan, hplan, hcarries.deployment, hcarries.scope, hown.1, hown.2,
      hshared.1, hshared.2⟩
    rcases heffect.others other.scope (by decide) with hkept | ⟨-, -, hdrops⟩
    · exact hkept
    · exact absurd hdrops (not_drops_of_length (by decide +kernel))

end Pipeline
end Rollout
