import Mathlib.Data.List.Nodup
import Rollout.Proofs.Store.Order

/-!
# Places of acceptances

A stored state that starts empty is changed and opened again in any order, with writes that fail at
any point.  The replacements that succeed get the places 0, 1, 2, ... in turn, and no place is given
twice, neither after its winner was dropped nor after a restart; so the winners stand in the order
in which they were accepted last.
-/

namespace Rollout.Store

/-! ### Calls -/

/-- What is asked of a stored state, with what came of it. -/
inductive Call where
  | replaced (scope : Scope) (w : Winner) (result : Except ReplaceError Winner)
  | retained (keep : Scope → Bool) (result : Except Snapshot.SaveError (List Scope))
  | reopened

/-- The winners of the replacements that succeeded, in the order in which they did. -/
def acceptances (log : List Call) : List Winner :=
  log.filterMap fun
    | .replaced _ _ (.ok seated) => some seated
    | _ => none

/-- The winner of the last replacement for a scope that succeeded. -/
def lastAccepted? (log : List Call) (scope : Scope) : Option Winner :=
  ((acceptances log).filter fun w => w.scope = scope).getLast?

section Calls

variable (log : List Call) (call : Call)

theorem acceptances_snoc : acceptances (log ++ [call]) = acceptances log ++ acceptances [call] :=
  List.filterMap_append

theorem lastAccepted?_snoc (scope : Scope) :
    lastAccepted? (log ++ [call]) scope =
      (lastAccepted? [call] scope).or (lastAccepted? log scope) := by
  rw [lastAccepted?, acceptances_snoc, List.filter_append, List.getLast?_append]
  rfl

theorem mem_of_lastAccepted? {scope : Scope} {w : Winner} (h : lastAccepted? log scope = some w) :
    w ∈ acceptances log ∧ w.scope = scope := by
  have hmem := List.mem_filter.1 (List.mem_of_getLast? h)
  exact ⟨hmem.1, of_decide_eq_true hmem.2⟩

end Calls

/-- What can come of a store and of the files around it through calls, and through what happens to
other files and to the faults of the file operations in between.  Programs with different tags may
change the state one after another. -/
inductive Chronicle {σ : Type} (files : Storage.Files (StateM σ)) (content : σ → Storage.Contents)
    (path : String) (tags : List String) (first : Store) (u₀ : σ) : List Call → Store → σ → Prop
  | start : Chronicle files content path tags first u₀ [] first u₀
  | elsewhere {log : List Call} {s : Store} {u u' : σ} :
    Chronicle files content path tags first u₀ log s u → content u' path = content u path →
    Chronicle files content path tags first u₀ log s u'
  | replaced {log : List Call} {s s' : Store} {u u' : σ} {tag : String} (htag : tag ∈ tags)
      (scope : Scope) (w : Winner) {result : Except ReplaceError Winner} :
    Chronicle files content path tags first u₀ log s u →
    (s.replace (Snapshot.save files path tag) scope w).run u = ((result, s'), u') →
    Chronicle files content path tags first u₀ (log ++ [.replaced scope w result]) s' u'
  | retained {log : List Call} {s s' : Store} {u u' : σ} {tag : String} (htag : tag ∈ tags)
      (keep : Scope → Bool) {result : Except Snapshot.SaveError (List Scope)} :
    Chronicle files content path tags first u₀ log s u →
    (s.retain (Snapshot.save files path tag) keep).run u = ((result, s'), u') →
    Chronicle files content path tags first u₀ (log ++ [.retained keep result]) s' u'
  | reopened {log : List Call} {s s' : Store} {u u' : σ} :
    Chronicle files content path tags first u₀ log s u → (load files path).run u = (.ok s', u') →
    Chronicle files content path tags first u₀ (log ++ [.reopened]) s' u'

section Chronicle

variable {σ : Type} {files : Storage.Files (StateM σ)} {content : σ → Storage.Contents}
  {path tag : String} {tags : List String} {opened first s s' : Store} {u₀ u u' : σ}
  {log : List Call}

theorem Chronicle.thenReplaced (h : Chronicle files content path tags first u₀ log s u)
    (htag : tag ∈ tags) (scope : Scope) (w : Winner) :
    Chronicle files content path tags first u₀
      (log ++ [.replaced scope w ((s.replace (Snapshot.save files path tag) scope w).run u).1.1])
      ((s.replace (Snapshot.save files path tag) scope w).run u).1.2
      ((s.replace (Snapshot.save files path tag) scope w).run u).2 :=
  .replaced htag scope w h rfl

theorem Chronicle.thenRetained (h : Chronicle files content path tags first u₀ log s u)
    (htag : tag ∈ tags) (keep : Scope → Bool) :
    Chronicle files content path tags first u₀
      (log ++ [.retained keep ((s.retain (Snapshot.save files path tag) keep).run u).1.1])
      ((s.retain (Snapshot.save files path tag) keep).run u).1.2
      ((s.retain (Snapshot.save files path tag) keep).run u).2 :=
  .retained htag keep h rfl

/-- Whether all programs that change the state replace its file as a whole. -/
def AllSwap (files : Storage.Files (StateM σ)) (content : σ → Storage.Contents) (path : String)
    (tags : List String) : Prop :=
  ∀ tag ∈ tags, Storage.Swaps files content path (Snapshot.temporary path tag)

/-! ### The file and the counter -/

theorem load_of_agrees (hshows : Storage.Shows files content path) {n : Nat}
    (h : Agrees path (content u path) opened n s) : (load files path).run u = (.ok s, u) := by
  rw [run_load hshows, h.opens]

/-- The file goes on to agree with the store, and each acceptance uses up one place. -/
theorem agrees_of_chronicle (hswaps : AllSwap files content path tags)
    (hshows : Storage.Shows files content path) {n : Nat}
    (hfirst : Agrees path (content u₀ path) opened n first)
    (h : Chronicle files content path tags first u₀ log s u) :
    Agrees path (content u path) opened (n + (acceptances log).length) s := by
  induction h with
  | start => exact hfirst
  | elsewhere _ hkept ih => exact ih.of_content_eq hkept
  | @replaced log s s' u u' tag htag scope w result _ hrun ih =>
    rw [acceptances_snoc, List.length_append]
    cases result with
    | ok seated => exact ih.replaced (hswaps tag htag) hrun
    | error e =>
      obtain ⟨rfl, hkept⟩ := replace_error (hswaps tag htag) hrun
      exact ih.of_content_eq hkept
  | @retained log s s' u u' tag htag keep result _ hrun ih =>
    rw [acceptances_snoc, List.length_append]
    exact ih.retained (hswaps tag htag) hrun
  | reopened _ hrun ih =>
    rw [acceptances_snoc, List.length_append]
    rw [load_of_agrees hshows ih] at hrun
    cases hrun
    exact ih

/-! ### The order of the acceptances -/

/-- Whether the acceptances have got their places in turn, whatever was asked for, and each winner
is the last one that was accepted for its scope. -/
structure Ordered (log : List Call) (s : Store) : Prop where
  places : (acceptances log).map (fun w => w.sequence.toNat) = List.range (acceptances log).length
  seats : ∀ scope w seated, .replaced scope w (.ok seated) ∈ log →
    seated = { w with scope := scope, sequence := seated.sequence }
  latest : ∀ scope w, s.winner? scope = some w → lastAccepted? log scope = some w

theorem ordered_empty : Ordered [] empty := ⟨rfl, nofun, nofun⟩

theorem Ordered.accept (h : Ordered log s) (hnext : s.nextSequence.toNat = (acceptances log).length)
    (scope : Scope) (w : Winner) :
    Ordered (log ++ [.replaced scope w (.ok (s.seat scope w))]) (s.accept scope w) := by
  let seated := s.seat scope w
  have hplace : seated.sequence.toNat = (acceptances log).length := hnext
  have hnew : acceptances [.replaced scope w (.ok seated)] = [seated] := rfl
  constructor
  · rw [acceptances_snoc, hnew, List.map_append, h.places, List.length_append,
      List.length_singleton, List.range_succ, List.map_singleton, hplace]
  · intro scope' w' seated' hmem
    rcases List.mem_append.1 hmem with hmem | hmem
    · exact h.seats scope' w' seated' hmem
    · cases List.mem_singleton.1 hmem
      rfl
  · intro other w' hw'
    have hlast : lastAccepted? [.replaced scope w (.ok seated)] other =
        if scope = other then some seated else none := by
      rw [lastAccepted?, hnew]
      by_cases hother : scope = other
      · subst hother
        rw [List.filter_singleton, if_pos rfl]
        simp [seated, seat]
      · rw [if_neg hother]
        simp [seated, seat, hother]
    rw [lastAccepted?_snoc, hlast]
    by_cases hother : other = scope
    · subst hother
      rw [winner?_accept_self] at hw'
      rw [if_pos rfl]
      exact hw'
    · rw [winner?_accept_of_ne _ hother] at hw'
      rw [if_neg (Ne.symm hother)]
      exact h.latest other w' hw'

/-- A call that accepts nothing leaves the order, if it leaves the winners or drops some. -/
theorem Ordered.keep (h : Ordered log s) {call : Call} (hnone : acceptances [call] = [])
    (hkept : ∀ scope w, s'.winner? scope = some w → s.winner? scope = some w) :
    Ordered (log ++ [call]) s' := by
  constructor
  · rw [acceptances_snoc, hnone, List.append_nil]
    exact h.places
  · intro scope w seated hmem
    rcases List.mem_append.1 hmem with hmem | hmem
    · exact h.seats scope w seated hmem
    · cases List.mem_singleton.1 hmem
      cases hnone
  · intro scope w hw
    have hlast : lastAccepted? [call] scope = none := by
      rw [lastAccepted?, hnone]
      rfl
    rw [lastAccepted?_snoc, hlast]
    exact h.latest scope w (hkept scope w hw)

theorem winner?_of_keepOnly {keep : Scope → Bool} {scope : Scope} {w : Winner}
    (h : (s.keepOnly keep).winner? scope = some w) : s.winner? scope = some w := by
  rw [winner?_keepOnly] at h
  split at h
  · exact h
  · cases h

theorem agrees_of_start (hswaps : AllSwap files content path tags)
    (hshows : Storage.Shows files content path)
    (hopen : ofContent path (content u₀ path) = .ok empty)
    (h : Chronicle files content path tags empty u₀ log s u) :
    Agrees path (content u path) empty (acceptances log).length s := by
  have hfirst : Agrees path (content u₀ path) empty 0 empty :=
    ⟨hopen, (flaw?_toSnapshot empty).1 (flaw?_of_ofContent hopen), rfl⟩
  have hall := agrees_of_chronicle hswaps hshows hfirst h
  rwa [Nat.zero_add] at hall

theorem Agrees.next {content : Option (Except Storage.FileError (List UInt8))} {n : Nat}
    (h : Agrees path content empty n s) : s.nextSequence.toNat = n :=
  h.places.trans (Nat.zero_add n)

theorem ordered_of_chronicle (hswaps : AllSwap files content path tags)
    (hshows : Storage.Shows files content path)
    (hopen : ofContent path (content u₀ path) = .ok empty)
    (h : Chronicle files content path tags empty u₀ log s u) : Ordered log s := by
  induction h with
  | start => exact ordered_empty
  | elsewhere _ _ ih => exact ih
  | @replaced log s s' u u' tag htag scope w result hbefore hrun ih =>
    have hnext := (agrees_of_start hswaps hshows hopen hbefore).next
    rcases replace_outcome (hswaps tag htag) scope w s u with ⟨e, v, hrun', -⟩ | ⟨v, -, hrun', -⟩
    · rw [hrun'] at hrun
      cases hrun
      exact ih.keep rfl fun _ _ hw => hw
    · rw [hrun'] at hrun
      cases hrun
      exact ih.accept hnext scope w
  | @retained log s s' u u' tag htag keep result hbefore hrun ih =>
    refine ih.keep rfl fun scope w hw => ?_
    rcases retain_store hrun with rfl | rfl
    · exact hw
    · exact winner?_of_keepOnly hw
  | @reopened log s s' u u' hbefore hrun ih =>
    rw [load_of_agrees hshows (agrees_of_start hswaps hshows hopen hbefore)] at hrun
    cases hrun
    exact ih.keep rfl fun _ _ hw => hw

/-! ### Winners in the order of their acceptance -/

namespace Ordered

variable (h : Ordered log s)

include h

theorem nodup : ((acceptances log).map fun w => w.sequence.toNat).Nodup := by
  rw [h.places]
  exact List.nodup_range

theorem pairwise : (acceptances log).Pairwise fun a b => a.sequence < b.sequence := by
  have hrange := List.pairwise_lt_range (n := (acceptances log).length)
  rw [← h.places, List.pairwise_map] at hrange
  exact hrange.imp UInt64.lt_iff_toNat_lt.2

theorem eq_of_sequence_eq {w w' : Winner} (hw : w ∈ acceptances log) (hw' : w' ∈ acceptances log)
    (hsame : w.sequence = w'.sequence) : w = w' :=
  List.inj_on_of_nodup_map h.nodup hw hw' (congrArg UInt64.toNat hsame)

theorem scope_eq {scope : Scope} {w : Winner} (hw : s.winner? scope = some w) : w.scope = scope :=
  (mem_of_lastAccepted? log (h.latest scope w hw)).2

theorem mem_acceptances {scope : Scope} {w : Winner} (hw : s.winner? scope = some w) :
    w ∈ acceptances log :=
  (mem_of_lastAccepted? log (h.latest scope w hw)).1

theorem nodup_values : s.winners.values.Nodup := by
  -- winners of different scopes differ in their scope
  have hsorted := s.winners.sorted
  refine List.pairwise_map.2 (hsorted.imp_of_mem fun {a b} ha hb hlt heq => ?_)
  have ha' : s.winner? ⟨a.1⟩ = some a.2 := NameMap.mem_entries.1 ha
  have hb' : s.winner? ⟨b.1⟩ = some b.2 := NameMap.mem_entries.1 hb
  have hname : a.1 = b.1 := congrArg Scope.name
    ((h.scope_eq ha').symm.trans (heq ▸ h.scope_eq hb'))
  rw [hname] at hlt
  exact String.lt_irrefl b.1 hlt

/-- A winner of a store stands in the scope that it names. -/
theorem mem_values {w : Winner} :
    w ∈ s.winners.values ↔ w ∈ acceptances log ∧ s.winner? w.scope = some w := by
  rw [NameMap.mem_values]
  constructor
  · rintro ⟨name, hname⟩
    have hw : s.winner? ⟨name⟩ = some w := hname
    rw [h.scope_eq hw]
    exact ⟨h.mem_acceptances hw, hw⟩
  · rintro ⟨-, hw⟩
    exact ⟨w.scope.name, hw⟩

/-- The winners of a store are those acceptances that are still in force, in their order. -/
theorem inOrder_eq :
    s.inOrder = (acceptances log).filter fun w => s.winner? w.scope = some w := by
  have hnodup : (acceptances log).Nodup := List.Nodup.of_map _ h.nodup
  have hmem : ∀ w, w ∈ s.inOrder ↔ w ∈ acceptances log ∧ s.winner? w.scope = some w := by
    intro w
    rw [inOrder, EffectiveSet.mem_inOrder, h.mem_values]
  refine List.Perm.eq_of_pairwise ?_ (EffectiveSet.pairwise_inOrder _)
    ((h.pairwise.filter _).imp UInt64.le_of_lt) ?_
  · intro a b ha hb hle hge
    exact h.eq_of_sequence_eq ((hmem a).1 ha).1 (List.mem_filter.1 hb).1
      (UInt64.le_antisymm hle hge)
  · refine (List.perm_ext_iff_of_nodup ?_ (hnodup.filter _)).2 fun w => ?_
    · exact (List.mergeSort_perm _ _).nodup_iff.2 h.nodup_values
    · rw [hmem, List.mem_filter, decide_eq_true_iff]

end Ordered

/-- In every run of calls on a stored state that starts empty, with writes that fail at any point:

* Each winner stands in its own scope, at a place before the next one, which no other winner has.
* The acceptances get the places 0, 1, 2, ... in turn, and their winners are those that were asked
  for, but with their scope and their place.  The next place never goes back.
* Each winner is the last one that was accepted for its scope, and the winners stand in the order of
  their acceptances.
* Opening the state again gives the same state. -/
theorem places_never_reused (hswaps : AllSwap files content path tags)
    (hshows : Storage.Shows files content path) (hopen : (load files path).run u₀ = (.ok empty, u₀))
    (h : Chronicle files content path tags empty u₀ log s u) :
    (∀ scope w, s.winner? scope = some w → w.scope = scope ∧ w.sequence < s.nextSequence ∧
      ∀ scope' w', s.winner? scope' = some w' → w'.sequence = w.sequence → scope' = scope) ∧
    (s.nextSequence.toNat = (acceptances log).length ∧
      (acceptances log).map (fun w => w.sequence.toNat) = List.range (acceptances log).length ∧
      (∀ scope w seated, .replaced scope w (.ok seated) ∈ log →
        seated = { w with scope := scope, sequence := seated.sequence }) ∧
      ∀ more s' u', Chronicle files content path tags s u more s' u' →
        s.nextSequence ≤ s'.nextSequence) ∧
    ((∀ scope w, s.winner? scope = some w → lastAccepted? log scope = some w) ∧
      s.inOrder = (acceptances log).filter fun w => s.winner? w.scope = some w) ∧
    (load files path).run u = (.ok s, u) := by
  rw [run_load hshows] at hopen
  have hcontent : ofContent path (content u₀ path) = .ok empty := congrArg Prod.fst hopen
  have hagrees := agrees_of_start hswaps hshows hcontent h
  have hordered := ordered_of_chronicle hswaps hshows hcontent h
  refine ⟨?_, ⟨hagrees.next, hordered.places, hordered.seats, ?_⟩,
    ⟨hordered.latest, hordered.inOrder_eq⟩, load_of_agrees hshows hagrees⟩
  · intro scope w hw
    refine ⟨hordered.scope_eq hw, (hagrees.sound scope.name w hw).2, fun scope' w' hw' hsame => ?_⟩
    have heq := hordered.eq_of_sequence_eq (hordered.mem_acceptances hw')
      (hordered.mem_acceptances hw) hsame
    rw [← hordered.scope_eq hw', heq, hordered.scope_eq hw]
  · intro more s' u' hmore
    have hlater := agrees_of_chronicle hswaps hshows hagrees hmore
    rw [UInt64.le_iff_toNat_le, hagrees.next, hlater.next]
    exact Nat.le_add_right _ _

end Chronicle

/-- A replacement that cannot be saved, the same one again, the dropping of its winner, a restart
and the same replacement once more. -/
theorem places_after_removal :
    ∃ log s u, Chronicle Storage.Disk.files.failing (fun u => Storage.Disk.content u.2)
        Snapshot.fileName ["1", "2"] empty ([false, false, true], ⟨.empty, []⟩) log s u ∧
      (acceptances log).map Winner.sequence = [0, 1] ∧
      s.inOrder = (acceptances log).filter fun w => s.winner? w.scope = some w := by
  let scope : Scope := ⟨"thinggroup/a"⟩
  let w : Winner := ⟨⟨"thinggroup/b"⟩, "d", "thinggroup/a", 1, 7, .empty⟩
  have hname : Storage.Disk.Plain Snapshot.fileName := ⟨by decide, by decide⟩
  have hfirst : Storage.Disk.Plain (Snapshot.temporary Snapshot.fileName "1") :=
    ⟨by decide, by decide⟩
  have hsecond : Storage.Disk.Plain (Snapshot.temporary Snapshot.fileName "2") :=
    ⟨by decide, by decide⟩
  have hswaps : AllSwap Storage.Disk.files.failing (fun u => Storage.Disk.content u.2)
      Snapshot.fileName ["1", "2"] := by
    refine List.forall_mem_cons.2 ⟨?_, List.forall_mem_singleton.2 ?_⟩
    · exact (Storage.Disk.swaps_files hname hfirst (by decide)).failing
    · exact (Storage.Disk.swaps_files hname hsecond (by decide)).failing
  have hshows := (Storage.Disk.shows_files Snapshot.fileName).failing
  have hopen : (load Storage.Disk.files.failing Snapshot.fileName).run
      ([false, false, true], ⟨.empty, []⟩) = (.ok empty, ([false, false, true], ⟨.empty, []⟩)) := by
    rw [run_load hshows]
    rfl
  have hstart : Chronicle Storage.Disk.files.failing (fun u => Storage.Disk.content u.2)
      Snapshot.fileName ["1", "2"] empty ([false, false, true], ⟨.empty, []⟩) [] empty
      ([false, false, true], ⟨.empty, []⟩) := .start
  have htag : "1" ∈ ["1", "2"] := by decide
  have hreplaced := (hstart.thenReplaced htag scope w).thenReplaced htag scope w
  have hdropped := hreplaced.thenRetained htag fun _ => false
  obtain ⟨-, -, -, hreopen⟩ :=
    places_never_reused hswaps hshows hopen hdropped
  have htag' : "2" ∈ ["1", "2"] := by decide
  have hall := (hdropped.reopened hreopen).thenReplaced htag' scope w
  obtain ⟨-, -, ⟨-, horder⟩, -⟩ := places_never_reused hswaps hshows hopen hall
  exact ⟨_, _, _, hall, by decide +kernel, horder⟩

end Rollout.Store
