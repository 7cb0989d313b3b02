import Rollout.Proofs.Overlay
import Rollout.Proofs.Store.Persistence

/-!
# The order of acceptances

Every acceptance takes a place after those of all winners that are in the store, however the store
has come about: `Reachable.sound`.  So the winner of the last acceptance lies on top, and the
effective components are those of all other winners with its own laid over them.
-/

namespace Rollout

/-! ### Sorting with one greatest element -/

section Sorting

variable {α : Type} {le : α → α → Bool}

theorem eq_of_append_of_split {p : α → Bool} {l₁ l₂ m₁ m₂ : List α} (h : l₁ ++ l₂ = m₁ ++ m₂)
    (hl₁ : ∀ a ∈ l₁, p a = true) (hl₂ : ∀ a ∈ l₂, ¬p a = true)
    (hm₁ : ∀ a ∈ m₁, p a = true) (hm₂ : ∀ a ∈ m₂, ¬p a = true) : l₁ = m₁ ∧ l₂ = m₂ := by
  have hfilter := congrArg (List.filter p) h
  simp only [List.filter_append, List.filter_eq_self.2 hl₁, List.filter_eq_self.2 hm₁,
    List.filter_eq_nil_iff.2 hl₂, List.filter_eq_nil_iff.2 hm₂, List.append_nil] at hfilter
  subst hfilter
  exact ⟨rfl, List.append_cancel_left h⟩

variable (htrans : ∀ a b c, le a b = true → le b c = true → le a c = true)
  (htotal : ∀ a b, (le a b || le b a) = true)

include htrans htotal

theorem le_of_mergeSort_eq {l l₁ l₂ : List α} {a : α} (h : l.mergeSort le = l₁ ++ a :: l₂) :
    ∀ b ∈ l₂, le a b = true := by
  have hsorted := List.pairwise_mergeSort htrans htotal l
  rw [h] at hsorted
  exact (List.pairwise_cons.1 (List.pairwise_append.1 hsorted).2.1).1

/-- The one greatest element of a list comes last, and the others are sorted as without it: where
they tie, they keep their order. -/
theorem mergeSort_append_greatest {x : α} {before after : List α}
    (h : ∀ y ∈ before ++ after, le x y = false) :
    (before ++ x :: after).mergeSort le = (before ++ after).mergeSort le ++ [x] := by
  induction before with
  | nil =>
    obtain ⟨l₁, l₂, hwith, hwithout, -⟩ := List.mergeSort_cons htrans htotal x after
    have hnone : l₂ = [] := by
      refine List.eq_nil_iff_forall_not_mem.2 fun y hy => ?_
      have hmem : y ∈ after := by
        have hsorted : y ∈ after.mergeSort le := by
          rw [hwithout]
          exact List.mem_append_right _ hy
        exact List.mem_mergeSort.1 hsorted
      have hle := le_of_mergeSort_eq htrans htotal hwith y hy
      rw [h y hmem] at hle
      cases hle
    rw [List.nil_append, List.nil_append, hwith, hwithout, hnone, List.append_nil]
  | cons y before ih =>
    obtain ⟨l₁, l₂, hwith, hrest, hl₁⟩ := List.mergeSort_cons htrans htotal y (before ++ x :: after)
    obtain ⟨m₁, m₂, hwithout, hrest', hm₁⟩ := List.mergeSort_cons htrans htotal y (before ++ after)
    have hl₂ := le_of_mergeSort_eq htrans htotal hwith
    have hm₂ := le_of_mergeSort_eq htrans htotal hwithout
    have hx : le y x = true := by
      have hboth := htotal x y
      rwa [h y List.mem_cons_self, Bool.false_or] at hboth
    have hsame : l₁ ++ l₂ = m₁ ++ (m₂ ++ [x]) := by
      rw [← hrest, ih fun z hz => h z (List.mem_cons_of_mem _ hz), hrest', List.append_assoc]
    -- `y` stands where the elements end that are less than it
    obtain ⟨rfl, rfl⟩ := eq_of_append_of_split (p := fun b => !le y b) hsame hl₁
      (by simpa using hl₂) hm₁ (by
        intro b hb
        rcases List.mem_append.1 hb with hb | hb
        · simp [hm₂ b hb]
        · simp [List.mem_singleton.1 hb, hx])
    rw [List.cons_append, hwith, List.cons_append, hwithout]
    simp

end Sorting

/-! ### Winners in the order of their acceptance -/

namespace EffectiveSet

theorem sequence_trans (a b c : Winner) (hab : decide (a.sequence ≤ b.sequence) = true)
    (hbc : decide (b.sequence ≤ c.sequence) = true) : decide (a.sequence ≤ c.sequence) = true := by
  simp only [decide_eq_true_eq] at *
  exact UInt64.le_trans hab hbc

theorem sequence_total (a b : Winner) :
    (decide (a.sequence ≤ b.sequence) || decide (b.sequence ≤ a.sequence)) = true := by
  simpa using UInt64.le_total a.sequence b.sequence

theorem pairwise_inOrder (winners : List Winner) :
    (inOrder winners).Pairwise fun a b => a.sequence ≤ b.sequence := by
  simpa [inOrder] using List.pairwise_mergeSort sequence_trans sequence_total winners

theorem inOrder_inOrder (winners : List Winner) : inOrder (inOrder winners) = inOrder winners :=
  List.mergeSort_of_pairwise (by simpa using pairwise_inOrder winners)

theorem inOrder_append_latest {w : Winner} {before after : List Winner}
    (h : ∀ w' ∈ before ++ after, w'.sequence < w.sequence) :
    inOrder (before ++ w :: after) = inOrder (before ++ after) ++ [w] := by
  refine mergeSort_append_greatest sequence_trans sequence_total fun w' hw' => ?_
  simpa using UInt64.not_le.2 (h w' hw')

theorem sequence_le_of_deciding? {winners : List Winner}
    (hsorted : winners.Pairwise fun a b => a.sequence ≤ b.sequence) {name : String} {w : Winner}
    {c : Contribution} (h : deciding? winners name = some (w, c)) :
    ∀ w' ∈ winners, w'.components.find? name ≠ none → w'.sequence ≤ w.sequence := by
  induction winners with
  | nil => exact fun _ hmem => absurd hmem List.not_mem_nil
  | cons first rest ih =>
    obtain ⟨hfirst, hrest⟩ := List.pairwise_cons.1 hsorted
    rw [deciding?_cons] at h
    intro w' hw' hnames
    cases hlater : deciding? rest name with
    | none =>
      rw [hlater] at h
      obtain ⟨c', -, heq⟩ := Option.map_eq_some_iff.1 h
      cases heq
      rcases List.mem_cons.1 hw' with rfl | hmem
      · exact UInt64.le_refl _
      · exact absurd (deciding?_eq_none.1 hlater w' hmem) hnames
    | some decided =>
      rw [hlater] at h
      cases h
      rcases List.mem_cons.1 hw' with rfl | hmem
      · exact hfirst w (mem_of_deciding? hlater).1
      · exact ih hrest hlater w' hmem hnames

end EffectiveSet

/-! ### The latest winner of a store -/

namespace Store

theorem effective_eq_foldl (s : Store) :
    s.effective = s.inOrder.foldl EffectiveSet.overlay .empty := by
  rw [effective, EffectiveSet.ofWinners, inOrder, EffectiveSet.inOrder_inOrder]

theorem effective_congr {s s' : Store} (h : s.winners = s'.winners) :
    s.effective = s'.effective := by
  rw [effective, effective, inOrder, inOrder, h]

/-- The effective components of a store are those of all other winners with the components of the
latest one laid over them. -/
theorem effective_eq_overlay {s : Store} {scope : Scope} {w : Winner}
    (hw : s.winner? scope = some w)
    (hlatest : ∀ other w', other ≠ scope → s.winner? other = some w' → w'.sequence < w.sequence) :
    s.effective = (s.keepOnly (· ≠ scope)).effective.overlay w := by
  obtain ⟨before, after, hentries⟩ := List.append_of_mem (NameMap.mem_entries.2 hw)
  have hsorted := s.winners.sorted
  rw [hentries] at hsorted
  obtain ⟨-, hright, hleft⟩ := List.pairwise_append.1 hsorted
  have hother : ∀ e ∈ before ++ after, e.1 ≠ scope.name := by
    intro e he heq
    rcases List.mem_append.1 he with he | he
    · have hlt : e.1 < scope.name := hleft e he _ List.mem_cons_self
      exact String.lt_irrefl scope.name (heq ▸ hlt)
    · have hlt : scope.name < e.1 := (List.pairwise_cons.1 hright).1 e he
      exact String.lt_irrefl scope.name (heq ▸ hlt)
  have hrest : (s.keepOnly (· ≠ scope)).winners.entries = before ++ after := by
    show s.winners.entries.filter (fun e => decide ((⟨e.1⟩ : Scope) ≠ scope)) = before ++ after
    have hkeep : ∀ e ∈ before ++ after, decide ((⟨e.1⟩ : Scope) ≠ scope) = true := by
      intro e he
      simp only [ne_eq, decide_not, Bool.not_eq_true', decide_eq_false_iff_not]
      rintro rfl
      exact hother e he rfl
    rw [hentries, List.filter_append, List.filter_cons]
    simp only [ne_eq, not_true_eq_false, decide_false, Bool.false_eq_true, if_false]
    rw [← List.filter_append]
    exact List.filter_eq_self.2 hkeep
  have hless : ∀ w' ∈ before.map (·.2) ++ after.map (·.2), w'.sequence < w.sequence := by
    intro w' hw'
    rw [← List.map_append] at hw'
    obtain ⟨e, he, rfl⟩ := List.mem_map.1 hw'
    have hmem : (e.1, e.2) ∈ s.winners.entries := by
      rw [hentries]
      rcases List.mem_append.1 he with he | he
      · exact List.mem_append_left _ he
      · exact List.mem_append_right _ (List.mem_cons_of_mem _ he)
    refine hlatest ⟨e.1⟩ e.2 ?_ (NameMap.mem_entries.1 hmem)
    rintro rfl
    exact hother e he rfl
  have hsplit : s.inOrder = (s.keepOnly (· ≠ scope)).inOrder ++ [w] := by
    rw [inOrder, inOrder, NameMap.values, NameMap.values, hentries, hrest, List.map_append,
      List.map_cons, List.map_append]
    exact EffectiveSet.inOrder_append_latest hless
  rw [effective_eq_foldl, effective_eq_foldl, hsplit, List.foldl_append]
  rfl

/-! ### Reachable stores -/

/-- What can come of an opened store through its changes, whatever saving them comes to.  A store is
opened from what its file holds, which may be nothing; so a restart is an opening. -/
inductive Reachable : Store → Prop
  | opened {path : String} {content : Option (Except Storage.FileError (List UInt8))} {s : Store}
      (h : ofContent path content = .ok s) : Reachable s
  | replaced {σ : Type} {save : Snapshot → StateM σ (Except Snapshot.SaveError Unit)}
      {s s' : Store} {scope : Scope} {w : Winner} {result : Except ReplaceError Winner} {u u' : σ}
      (h : Reachable s) (hrun : (s.replace save scope w).run u = ((result, s'), u')) : Reachable s'
  | retained {σ : Type} {save : Snapshot → StateM σ (Except Snapshot.SaveError Unit)}
      {s s' : Store} {keep : Scope → Bool} {result : Except Snapshot.SaveError (List Scope)}
      {u u' : σ} (h : Reachable s) (hrun : (s.retain save keep).run u = ((result, s'), u')) :
      Reachable s'

section Changes

variable {σ : Type} {save : Snapshot → StateM σ (Except Snapshot.SaveError Unit)} {s s' : Store}
  {u u' : σ}

theorem replace_store {scope : Scope} {w : Winner} {result : Except ReplaceError Winner}
    (h : (s.replace save scope w).run u = ((result, s'), u')) :
    s' = s ∨ s.Room ∧ s' = s.accept scope w := by
  rcases replace_cases h with ⟨_, -, -, -, hsame, -⟩ | ⟨-, ⟨-, -, hsame, -⟩ | ⟨hroom, hsaved⟩⟩
  · exact .inl hsame
  · exact .inl hsame
  · rcases hsaved with ⟨_, -, hsame⟩ | ⟨-, haccepted⟩
    · exact .inl hsame
    · exact .inr ⟨hroom, haccepted⟩

theorem retain_store {keep : Scope → Bool} {result : Except Snapshot.SaveError (List Scope)}
    (h : (s.retain save keep).run u = ((result, s'), u')) : s' = s ∨ s' = s.keepOnly keep := by
  by_cases hdropped : s.dropped keep = []
  · rw [retain_nothing hdropped] at h
    cases h
    exact .inl rfl
  · rcases hsave : (save (s.keepOnly keep).toSnapshot).run u with ⟨answer, v⟩
    cases answer with
    | ok _ =>
      rw [retain_saved hdropped hsave] at h
      cases h
      exact .inr rfl
    | error e =>
      rw [retain_unsaved hdropped hsave] at h
      cases h
      exact .inl rfl

end Changes

theorem Reachable.sound {s : Store} (h : Reachable s) : s.Sound := by
  induction h with
  | opened h => exact (flaw?_toSnapshot _).1 (flaw?_of_ofContent h)
  | replaced _ hrun ih =>
    rcases replace_store hrun with rfl | ⟨hroom, rfl⟩
    · exact ih
    · exact ih.accept hroom _ _
  | retained _ hrun ih =>
    rcases retain_store hrun with rfl | rfl
    · exact ih
    · exact ih.keepOnly _

theorem Reachable.empty : Reachable Store.empty := by
  have hnothing : ofContent Snapshot.fileName none = .ok Store.empty := rfl
  exact .opened hnothing

theorem Reachable.accept {s : Store} (h : Reachable s) (hroom : s.Room) {scope : Scope} {w : Winner}
    (hlater : s.Later scope w.createdAt) : Reachable (s.accept scope w) := by
  have hsave : (unsaved (s.accept scope w).toSnapshot : StateM Unit _).run () = (.ok (), ()) := rfl
  exact .replaced h (replace_saved hlater hroom hsave)

theorem Reachable.keepOnly {s : Store} (h : Reachable s) (keep : Scope → Bool) :
    Reachable (s.keepOnly keep) := by
  by_cases hdropped : s.dropped keep = []
  · rw [keepOnly_eq_self hdropped]
    exact h
  · have hsave : (unsaved (s.keepOnly keep).toSnapshot : StateM Unit _).run () = (.ok (), ()) := rfl
    exact .retained h (retain_saved hdropped hsave)

end Store
end Rollout
