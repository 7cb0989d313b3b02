import Rollout.Proofs.Store.Persistence

/-!
# How far the counter of acceptances reaches

An acceptance takes the next place, which lies after those of all winners there are, and the new
state can be opened again.  This goes on up to the last place that can be counted: no winner is
accepted there, and what is stored stays as it is.
-/

namespace Rollout.Store

variable {s s' : Store} {scope : Scope} {w : Winner}

/-! ### The place of an acceptance -/

/-- Whether a winner stands in a scope and was accepted after those of all other scopes. -/
def SortsLast (s : Store) (scope : Scope) (w : Winner) : Prop :=
  s.winner? scope = some w ∧
    ∀ other w', other ≠ scope → s.winner? other = some w' → w'.sequence < w.sequence

theorem Sound.sortsLast (h : s.Sound) (scope : Scope) (w : Winner) :
    (s.accept scope w).SortsLast scope (s.seat scope w) := by
  refine ⟨s.winner?_accept_self scope w, fun other w' hother hw' => ?_⟩
  rw [winner?_accept_of_ne s hother] at hw'
  exact (h other.name w' hw').2

/-! ### One acceptance on files -/

section Files

variable {σ : Type} {files sound : Storage.Files (StateM σ)} {content : σ → Storage.Contents}
  {path tag : String} {u u' : σ}

theorem replace_ok (h : Storage.Swaps files content path (Snapshot.temporary path tag))
    (hrun : (s.replace (Snapshot.save files path tag) scope w).run u = ((.ok seated, s'), u')) :
    s.Room ∧ seated = s.seat scope w ∧ s' = s.accept scope w ∧
      content u' path = some (.ok s'.toSnapshot.toBytes) := by
  rcases replace_outcome h scope w s u with ⟨e, v, hrun', -⟩ | ⟨v, hroom, hrun', hwritten⟩
  · rw [hrun'] at hrun
    cases hrun
  · rw [hrun'] at hrun
    cases hrun
    exact ⟨hroom, rfl, rfl, hwritten⟩

theorem load_of_written (hshows : Storage.Shows sound content path) (hsound : s.Sound)
    (hwritten : content u path = some (.ok s.toSnapshot.toBytes)) :
    (load sound path).run u = (.ok s, u) := by
  rw [run_load hshows, hwritten, ofContent_toBytes ((flaw?_toSnapshot s).2 hsound)]

theorem sound_of_load (hshows : Storage.Shows sound content path)
    (hopen : (load sound path).run u = (.ok s, u)) : s.Sound := by
  rw [run_load hshows] at hopen
  exact (flaw?_toSnapshot s).1 (flaw?_of_ofContent (congrArg Prod.fst hopen))

/-- For an opened state and a winner that is later than the current one of its scope:

* If the winner is accepted, it sorts last, the next place is the one after its own, the new state
  passes the check and opens as it is, and so the next acceptance sorts last, too.
* It is accepted if the place after its own can be counted and the new state can be saved.
* If that place cannot be counted, nothing is saved and the state stays as it is. -/
theorem sorts_last_and_reopens
    (hfiles : Storage.Swaps files content path (Snapshot.temporary path tag))
    (hshows : Storage.Shows sound content path) (hopen : (load sound path).run u = (.ok s, u))
    (hlater : s.Later scope w.createdAt) :
    (∀ seated s' u',
      (s.replace (Snapshot.save files path tag) scope w).run u = ((.ok seated, s'), u') →
      s'.SortsLast scope seated ∧
      s'.nextSequence.toNat = s.nextSequence.toNat + 1 ∧ s'.toSnapshot.flaw? = none ∧
      (load sound path).run u' = (.ok s', u') ∧
      ∀ scope' w' seated' s'' u'',
        (s'.replace (Snapshot.save files path tag) scope' w').run u' =
          ((.ok seated', s''), u'') → s''.SortsLast scope' seated') ∧
    (s.Room → ∀ u',
      (Snapshot.save files path tag (s.accept scope w).toSnapshot).run u = (.ok (), u') →
      (s.replace (Snapshot.save files path tag) scope w).run u =
        ((.ok { w with scope := scope, sequence := s.nextSequence }, s.accept scope w), u')) ∧
    (¬s.Room →
      (s.replace (Snapshot.save files path tag) scope w).run u = ((.error .exhausted, s), u)) := by
  have hsound := sound_of_load hshows hopen
  refine ⟨fun seated s' u' hrun => ?_, fun hroom u' hsave => replace_saved hlater hroom hsave,
    fun hfull => replace_exhausted hlater hfull u⟩
  obtain ⟨hroom, rfl, rfl, hwritten⟩ := replace_ok hfiles hrun
  have hnext := hsound.accept hroom scope w
  refine ⟨hsound.sortsLast scope w, toNat_nextSequence hroom, (flaw?_toSnapshot _).2 hnext,
    load_of_written hshows hnext hwritten, fun scope' w' seated' s'' u'' hagain => ?_⟩
  obtain ⟨-, rfl, rfl, -⟩ := replace_ok hfiles hagain
  exact hnext.sortsLast scope' w'

end Files

/-- The snapshot file of the working directory is replaced as a whole. -/
theorem swaps_snapshot_file :
    Storage.Swaps Storage.Disk.files Storage.Disk.content Snapshot.fileName
      (Snapshot.temporary Snapshot.fileName "1") :=
  Storage.Disk.swaps_files ⟨by decide, by decide⟩ ⟨by decide, by decide⟩ (by decide)

/-- A winner accepted at the last place but one, into a state that was opened from its file, and a
later one that finds the counter at its end. -/
theorem sorts_last_below_last_place :
    let files := Storage.Disk.files
    let save := Snapshot.save files Snapshot.fileName "1"
    let scope : Scope := ⟨"thinggroup/a"⟩
    let opened : Store := ⟨.empty, 18446744073709551614⟩
    let disk : Storage.Disk :=
      ⟨.ofList [("/" ++ Snapshot.fileName, .file opened.toSnapshot.toBytes)], []⟩
    let w : Winner := ⟨scope, "d", "thinggroup/a", 1, 0, .empty⟩
    let later : Winner := ⟨scope, "e", "thinggroup/a", 2, 0, .empty⟩
    (load files Snapshot.fileName).run disk = (.ok opened, disk) ∧
    ∃ seated s disk',
      (opened.replace save scope w).run disk = ((.ok seated, s), disk') ∧
      seated.sequence = 18446744073709551614 ∧
      s.SortsLast scope seated ∧ s.nextSequence = 18446744073709551615 ∧
      (load files Snapshot.fileName).run disk' = (.ok s, disk') ∧
      (s.replace save scope later).run disk' = ((.error .exhausted, s), disk') := by
  intro files save scope opened disk w later
  have hfiles := swaps_snapshot_file
  have hshows := Storage.Disk.shows_files Snapshot.fileName
  have hopen : (load files Snapshot.fileName).run disk = (.ok opened, disk) := by
    rw [run_load hshows]
    exact congrArg (·, disk) (ofContent_toBytes (by decide) Snapshot.fileName)
  have hsaved : ((opened.replace save scope w).run disk).1.1.isOk = true := by
    decide +kernel
  rcases replace_outcome hfiles scope w opened disk with ⟨e, disk', hrun, -⟩ | ⟨disk', -, hrun, -⟩
  · have hfailed : ((opened.replace save scope w).run disk).1.1.isOk = false := by
      rw [hrun]
      rfl
    rw [hfailed] at hsaved
    cases hsaved
  · have hfirst : opened.Later scope w.createdAt := fun current hcurrent => nomatch hcurrent
    obtain ⟨haccepted, -⟩ := sorts_last_and_reopens hfiles hshows hopen hfirst
    obtain ⟨hlast, hnext, -, hreopen, -⟩ := haccepted _ _ _ hrun
    have hlater : (opened.accept scope w).Later scope later.createdAt := by
      intro current hcurrent
      rw [winner?_accept_self] at hcurrent
      cases hcurrent
      decide
    obtain ⟨-, -, hfull⟩ := sorts_last_and_reopens hfiles hshows hreopen hlater
    exact ⟨hopen, _, _, disk', hrun, rfl, hlast, UInt64.toNat_inj.1 hnext, hreopen,
      hfull (by unfold Room; decide)⟩

end Rollout.Store
