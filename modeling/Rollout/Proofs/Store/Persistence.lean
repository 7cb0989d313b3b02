import Rollout.Proofs.Store.Saving

/-!
# A store agrees with its file

Over every run of changes to an opened store, with writes that fail at any point, the snapshot file
opens as the store in memory, and a failed change alters neither.  What carries this is that the
store in memory always passes the check of snapshots (`Sound`), so that its bytes are admitted.
-/

namespace Rollout.Store

/-! ### Stores that pass the check -/

/-- Whether each winner stands under its own scope and was accepted before the next place. -/
def Sound (s : Store) : Prop :=
  ∀ name w, s.winners.find? name = some w → w.scope.name = name ∧ w.sequence < s.nextSequence

theorem flaw?_toSnapshot (s : Store) : s.toSnapshot.flaw? = none ↔ s.Sound := by
  have hentry : ∀ (name : String) (w : Winner), Snapshot.entryFlaw? s.nextSequence name w = none ↔
      w.scope.name = name ∧ w.sequence < s.nextSequence := by
    intro name w
    unfold Snapshot.entryFlaw?
    split
    · rename_i hne
      simp only [reduceCtorEq, false_iff, not_and]
      exact fun h => absurd h.symm hne
    · rename_i heq
      have hname : w.scope.name = name := (Decidable.not_not.1 heq).symm
      split
      · rename_i hle
        simp only [reduceCtorEq, false_iff, not_and]
        exact fun _ => UInt64.not_lt.2 hle
      · rename_i hle
        simp only [true_iff]
        exact ⟨hname, UInt64.not_le.1 hle⟩
  have hversion : ¬s.toSnapshot.version ≠ Snapshot.currentVersion := fun h => h rfl
  rw [Snapshot.flaw?, if_neg hversion, List.findSome?_eq_none_iff]
  constructor
  · intro h name w hw
    exact (hentry name w).1 (h (name, w) (NameMap.mem_entries.2 hw))
  · intro h e he
    exact (hentry e.1 e.2).2 (h e.1 e.2 (NameMap.mem_entries.1 he))

theorem toNat_nextSequence {s : Store} (h : s.Room) :
    (s.nextSequence + 1).toNat = s.nextSequence.toNat + 1 := by
  rw [UInt64.toNat_add]
  exact Nat.mod_eq_of_lt h

theorem Sound.accept {s : Store} (h : s.Sound) (hroom : s.Room) (scope : Scope) (w : Winner) :
    (s.accept scope w).Sound := by
  have hnext : s.nextSequence < s.nextSequence + 1 := by
    rw [UInt64.lt_iff_toNat_lt, toNat_nextSequence hroom]
    omega
  intro name w' hw'
  have hfind : (s.winners.insert scope.name (s.seat scope w)).find? name = some w' := hw'
  rw [NameMap.find?_insert] at hfind
  split at hfind
  · rename_i hname
    cases hfind
    exact ⟨hname.symm, hnext⟩
  · obtain ⟨hscope, hbefore⟩ := h name w' hfind
    exact ⟨hscope, UInt64.lt_trans hbefore hnext⟩

theorem Sound.keepOnly {s : Store} (h : s.Sound) (keep : Scope → Bool) :
    (s.keepOnly keep).Sound := by
  intro name w hw
  have hfind : (s.winners.filter fun name _ => keep ⟨name⟩).find? name = some w := hw
  rw [NameMap.find?_filter, Option.filter_eq_some_iff] at hfind
  exact h name w hfind.1

/-! ### One change -/

section Change

variable {σ : Type} {files : Storage.Files (StateM σ)} {content : σ → Storage.Contents}
  {path tag : String}

theorem replace_outcome
    (h : Storage.Swaps files content path (Snapshot.temporary path tag)) (scope : Scope)
    (w : Winner) (s : Store) (u : σ) :
    (∃ e u', (s.replace (Snapshot.save files path tag) scope w).run u = ((.error e, s), u') ∧
      content u' path = content u path) ∨
    (∃ u', s.Room ∧ (s.replace (Snapshot.save files path tag) scope w).run u =
        ((.ok (s.seat scope w), s.accept scope w), u') ∧
      content u' path = some (.ok (s.accept scope w).toSnapshot.toBytes)) := by
  rcases s.later_or_not scope w.createdAt with hlater | ⟨current, hcurrent, hle⟩
  · by_cases hroom : s.Room
    · rcases Snapshot.content_save h (s.accept scope w).toSnapshot u with
        ⟨u', hsave, hcontent⟩ | ⟨e, u', hsave, hcontent⟩
      · exact .inr ⟨u', hroom, replace_saved hlater hroom hsave, hcontent⟩
      · exact .inl ⟨_, u', replace_unsaved hlater hroom hsave, hcontent⟩
    · exact .inl ⟨_, u, replace_exhausted hlater hroom u, rfl⟩
  · exact .inl ⟨_, u, replace_not_later hcurrent hle u, rfl⟩

theorem retain_outcome
    (h : Storage.Swaps files content path (Snapshot.temporary path tag)) (keep : Scope → Bool)
    (s : Store) (u : σ) :
    (∃ e u', (s.retain (Snapshot.save files path tag) keep).run u = ((.error e, s), u') ∧
      content u' path = content u path) ∨
    (s.retain (Snapshot.save files path tag) keep).run u = ((.ok [], s), u) ∨
    (∃ u', (s.retain (Snapshot.save files path tag) keep).run u =
        ((.ok (s.dropped keep), s.keepOnly keep), u') ∧
      content u' path = some (.ok (s.keepOnly keep).toSnapshot.toBytes)) := by
  by_cases hdropped : s.dropped keep = []
  · exact .inr (.inl (retain_nothing hdropped u))
  · rcases Snapshot.content_save h (s.keepOnly keep).toSnapshot u with
      ⟨u', hsave, hcontent⟩ | ⟨e, u', hsave, hcontent⟩
    · exact .inr (.inr ⟨u', retain_saved hdropped hsave, hcontent⟩)
    · exact .inl ⟨_, u', retain_unsaved hdropped hsave, hcontent⟩

end Change

/-! ### Runs of changes -/

section Runs

variable {σ : Type} {files sound : Storage.Files (StateM σ)}
  {content : σ → Storage.Contents} {path tag : String}

/-- What can come of an opened store, with the files around it, through changes of the store and
through what happens to other files and to the faults of the file operations in between.  The number
counts the winners that were replaced. -/
inductive Reached (files : Storage.Files (StateM σ)) (content : σ → Storage.Contents)
    (path tag : String) (opened : Store) (u₀ : σ) : Nat → Store → σ → Prop
  | opened : Reached files content path tag opened u₀ 0 opened u₀
  | elsewhere {n : Nat} {s : Store} {u u' : σ} :
    Reached files content path tag opened u₀ n s u → content u' path = content u path →
    Reached files content path tag opened u₀ n s u'
  | replaced {n : Nat} {s s' : Store} {u u' : σ} (scope : Scope) (w : Winner) {seated : Winner} :
    Reached files content path tag opened u₀ n s u →
    (s.replace (Snapshot.save files path tag) scope w).run u = ((.ok seated, s'), u') →
    Reached files content path tag opened u₀ (n + 1) s' u'
  | refused {n : Nat} {s s' : Store} {u u' : σ} (scope : Scope) (w : Winner) {e : ReplaceError} :
    Reached files content path tag opened u₀ n s u →
    (s.replace (Snapshot.save files path tag) scope w).run u = ((.error e, s'), u') →
    Reached files content path tag opened u₀ n s' u'
  | retained {n : Nat} {s s' : Store} {u u' : σ} (keep : Scope → Bool)
      {result : Except Snapshot.SaveError (List Scope)} :
    Reached files content path tag opened u₀ n s u →
    (s.retain (Snapshot.save files path tag) keep).run u = ((result, s'), u') →
    Reached files content path tag opened u₀ n s' u'

/-- Whether the file opens as a store that passes the check and has used some places. -/
structure Agrees (path : String) (content : Option (Except Storage.FileError (List UInt8)))
    (opened : Store) (n : Nat) (s : Store) : Prop where
  opens : ofContent path content = .ok s
  sound : s.Sound
  places : s.nextSequence.toNat = opened.nextSequence.toNat + n

theorem agrees_of_written {s opened : Store} (hsound : s.Sound) {n : Nat}
    (hplaces : s.nextSequence.toNat = opened.nextSequence.toNat + n) :
    Agrees path (some (.ok s.toSnapshot.toBytes)) opened n s :=
  ⟨ofContent_toBytes ((flaw?_toSnapshot s).2 hsound) path, hsound, hplaces⟩

theorem Agrees.of_content_eq {opened s : Store} {n : Nat}
    {before after : Option (Except Storage.FileError (List UInt8))}
    (h : Agrees path before opened n s) (hkept : after = before) :
    Agrees path after opened n s := by
  rw [hkept]
  exact h

theorem replace_error (h : Storage.Swaps files content path (Snapshot.temporary path tag))
    {scope : Scope} {w : Winner} {s s' : Store} {u u' : σ} {e : ReplaceError}
    (hrun : (s.replace (Snapshot.save files path tag) scope w).run u = ((.error e, s'), u')) :
    s' = s ∧ content u' path = content u path := by
  rcases replace_outcome h scope w s u with ⟨e', v, hrun', hkept⟩ | ⟨v, -, hrun', -⟩
  · rw [hrun'] at hrun
    cases hrun
    exact ⟨rfl, hkept⟩
  · rw [hrun'] at hrun
    cases hrun

theorem retain_error (h : Storage.Swaps files content path (Snapshot.temporary path tag))
    {keep : Scope → Bool} {s s' : Store} {u u' : σ} {e : Snapshot.SaveError}
    (hrun : (s.retain (Snapshot.save files path tag) keep).run u = ((.error e, s'), u')) :
    s' = s ∧ content u' path = content u path := by
  rcases retain_outcome h keep s u with ⟨e', v, hrun', hkept⟩ | hrun' | ⟨v, hrun', -⟩
  · rw [hrun'] at hrun
    cases hrun
    exact ⟨rfl, hkept⟩
  · rw [hrun'] at hrun
    cases hrun
  · rw [hrun'] at hrun
    cases hrun

theorem Agrees.replaced {opened s s' : Store} {n : Nat} {u u' : σ}
    (h : Agrees path (content u path) opened n s)
    (hfiles : Storage.Swaps files content path (Snapshot.temporary path tag)) {scope : Scope}
    {w seated : Winner}
    (hrun : (s.replace (Snapshot.save files path tag) scope w).run u = ((.ok seated, s'), u')) :
    Agrees path (content u' path) opened (n + 1) s' := by
  rcases replace_outcome hfiles scope w s u with ⟨e, v, hrun', -⟩ | ⟨v, hroom, hrun', hwritten⟩
  · rw [hrun'] at hrun
    cases hrun
  · rw [hrun'] at hrun
    cases hrun
    have hplaces := h.places
    rw [hwritten]
    refine agrees_of_written (h.sound.accept hroom scope w) ?_
    have hnext : (s.accept scope w).nextSequence.toNat = s.nextSequence.toNat + 1 :=
      toNat_nextSequence hroom
    omega

theorem Agrees.retained {opened s s' : Store} {n : Nat} {u u' : σ}
    (h : Agrees path (content u path) opened n s)
    (hfiles : Storage.Swaps files content path (Snapshot.temporary path tag)) {keep : Scope → Bool}
    {result : Except Snapshot.SaveError (List Scope)}
    (hrun : (s.retain (Snapshot.save files path tag) keep).run u = ((result, s'), u')) :
    Agrees path (content u' path) opened n s' := by
  rcases retain_outcome hfiles keep s u with ⟨e, v, hrun', hkept⟩ | hrun' | ⟨v, hrun', hwritten⟩
  · rw [hrun'] at hrun
    cases hrun
    exact h.of_content_eq hkept
  · rw [hrun'] at hrun
    cases hrun
    exact h
  · rw [hrun'] at hrun
    cases hrun
    rw [hwritten]
    exact agrees_of_written (h.sound.keepOnly keep) h.places

theorem agrees_of_reached (hfiles : Storage.Swaps files content path (Snapshot.temporary path tag))
    {opened : Store} {u₀ : σ} (hopen : ofContent path (content u₀ path) = .ok opened) {n : Nat}
    {s : Store} {u : σ} (hrun : Reached files content path tag opened u₀ n s u) :
    Agrees path (content u path) opened n s := by
  -- that the file opens as the store is not kept by itself: only a sound store is admitted again
  induction hrun with
  | opened => exact ⟨hopen, (flaw?_toSnapshot opened).1 (flaw?_of_ofContent hopen), rfl⟩
  | elsewhere _ hkept ih => exact ih.of_content_eq hkept
  | replaced scope w _ hrun ih => exact ih.replaced hfiles hrun
  | refused scope w _ hrun ih =>
    obtain ⟨rfl, hkept⟩ := replace_error hfiles hrun
    exact ih.of_content_eq hkept
  | retained keep _ hrun ih => exact ih.retained hfiles hrun

/-- After any run of changes the file opens as the store in memory, and a change that fails leaves
the store and the content of its file as they were. -/
theorem file_agrees_with_memory
    (hfiles : Storage.Swaps files content path (Snapshot.temporary path tag))
    (hsound : Storage.Shows sound content path) {opened : Store} {u₀ : σ}
    (hopen : (load sound path).run u₀ = (.ok opened, u₀)) {n : Nat} {s : Store} {u : σ}
    (hrun : Reached files content path tag opened u₀ n s u) :
    (load sound path).run u = (.ok s, u) ∧
    (∀ scope w e s' u',
      (s.replace (Snapshot.save files path tag) scope w).run u = ((.error e, s'), u') →
      s' = s ∧ content u' path = content u path) ∧
    (∀ keep e s' u',
      (s.retain (Snapshot.save files path tag) keep).run u = ((.error e, s'), u') →
      s' = s ∧ content u' path = content u path) := by
  rw [run_load hsound] at hopen
  have hcontent : ofContent path (content u₀ path) = .ok opened := congrArg Prod.fst hopen
  have hagrees := agrees_of_reached hfiles hcontent hrun
  refine ⟨?_, ?_, ?_⟩
  · rw [run_load hsound, hagrees.opens]
  · intro scope w e s' u' hfailed
    exact replace_error hfiles hfailed
  · intro keep e s' u' hfailed
    exact retain_error hfiles hfailed

end Runs

/-- A replacement whose renaming fails, and then the same one on a disk that works again. -/
theorem file_agrees_after_failed_rename :
    let files := Storage.Disk.files.failing
    let save := Snapshot.save files Snapshot.fileName "1"
    let scope : Scope := ⟨"thinggroup/a"⟩
    let w : Winner := ⟨scope, "d", "thinggroup/a", 1, 0, .empty⟩
    ∃ e u u' s, (empty.replace save scope w).run ([false, false, true], ⟨.empty, []⟩) =
        ((.error e, empty), u) ∧
      (empty.replace save scope w).run u = ((.ok w, s), u') ∧
      (load files Snapshot.fileName).run u' = (.ok s, u') := by
  intro files save scope w
  have hname : Storage.Disk.Plain Snapshot.fileName := ⟨by decide, by decide⟩
  have htemporary : Storage.Disk.Plain (Snapshot.temporary Snapshot.fileName "1") :=
    ⟨by decide, by decide⟩
  have hfiles := (Storage.Disk.swaps_files hname htemporary (by decide)).failing
  have hshows := (Storage.Disk.shows_files Snapshot.fileName).failing
  have hfailed : ((empty.replace save scope w).run
      ([false, false, true], ⟨.empty, []⟩)).1.1.isOk = false := by
    decide +kernel
  have hsaved : ((empty.replace save scope w).run ((empty.replace save scope w).run
      ([false, false, true], ⟨.empty, []⟩)).2).1.1.isOk = true := by
    decide +kernel
  rcases replace_outcome hfiles scope w empty ([false, false, true], ⟨.empty, []⟩) with
    ⟨e, u, hfirst, -⟩ | ⟨u, -, hfirst, -⟩
  · have hu : ((empty.replace save scope w).run ([false, false, true], ⟨.empty, []⟩)).2 = u := by
      rw [hfirst]
    rw [hu] at hsaved
    rcases replace_outcome hfiles scope w empty u with
      ⟨e', u', hsecond, -⟩ | ⟨u', -, hsecond, -⟩
    · rw [hsecond] at hsaved
      cases hsaved
    · refine ⟨e, u, u', empty.accept scope w, hfirst, hsecond, ?_⟩
      have hrun : Reached files (fun u => Storage.Disk.content u.2) Snapshot.fileName "1" empty
          ([false, false, true], ⟨.empty, []⟩) 1 (empty.accept scope w) u' :=
        .replaced scope w (.refused scope w .opened hfirst) hsecond
      have hopen : (load files Snapshot.fileName).run ([false, false, true], ⟨.empty, []⟩) =
          (.ok empty, [false, false, true], ⟨.empty, []⟩) := by
        rw [run_load hshows]
        rfl
      exact (file_agrees_with_memory hfiles hshows hopen hrun).1
  · rw [hfirst] at hfailed
    cases hfailed

end Rollout.Store
