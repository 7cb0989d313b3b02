import Rollout.Arbitration
import Rollout.Store.Basic

/-!
# What the changes of a store do

The laws of `Store.accept` and `Store.keepOnly`, and what `Store.replace` and `Store.retain` come to
with a given way of saving: either the new state is saved and takes effect, or the store stays.  It
also stays where an acceptance cannot be counted; then nothing is saved.
-/

namespace Rollout.Store

/-! ### Look-up after a change -/

theorem winner?_accept (s : Store) (scope other : Scope) (w : Winner) :
    (s.accept scope w).winner? other =
      if other = scope then some (s.seat scope w) else s.winner? other := by
  have hname : (other.name = scope.name) = (other = scope) := by
    cases other
    cases scope
    simp
  simp only [winner?, accept, NameMap.find?_insert, hname]

theorem winner?_accept_self (s : Store) (scope : Scope) (w : Winner) :
    (s.accept scope w).winner? scope = some (s.seat scope w) := by
  rw [winner?_accept, if_pos rfl]

theorem winner?_accept_of_ne (s : Store) {scope other : Scope} (h : other ≠ scope) (w : Winner) :
    (s.accept scope w).winner? other = s.winner? other := by
  rw [winner?_accept, if_neg h]

theorem winner?_keepOnly (s : Store) (keep : Scope → Bool) (scope : Scope) :
    (s.keepOnly keep).winner? scope = if keep scope then s.winner? scope else none := by
  simp only [winner?, keepOnly, NameMap.find?_filter]
  cases hk : keep scope with
  | true => cases s.winners.find? scope.name <;> simp
  | false => cases s.winners.find? scope.name <;> simp

theorem mem_scopes {s : Store} {scope : Scope} :
    scope ∈ s.scopes ↔ ∃ w, s.winner? scope = some w := by
  rw [scopes, List.mem_map, winner?]
  constructor
  · rintro ⟨name, hname, rfl⟩
    exact NameMap.mem_names.1 hname
  · intro h
    exact ⟨scope.name, NameMap.mem_names.2 h, rfl⟩

def dropped (s : Store) (keep : Scope → Bool) : List Scope :=
  s.scopes.filter fun scope => !keep scope

theorem dropped_eq_nil {s : Store} {keep : Scope → Bool} :
    s.dropped keep = [] ↔ ∀ scope w, s.winner? scope = some w → keep scope = true := by
  rw [dropped, List.filter_eq_nil_iff]
  constructor
  · intro h scope w hw
    simpa using h scope (mem_scopes.2 ⟨w, hw⟩)
  · intro h scope hmem
    obtain ⟨w, hw⟩ := mem_scopes.1 hmem
    simp [h scope w hw]

theorem keepOnly_eq_self {s : Store} {keep : Scope → Bool} (h : s.dropped keep = []) :
    s.keepOnly keep = s := by
  have hwinners : (s.keepOnly keep).winners = s.winners := by
    refine NameMap.ext_find? fun name => ?_
    have hlook := winner?_keepOnly s keep ⟨name⟩
    simp only [winner?] at hlook
    rw [hlook]
    split
    · rfl
    · rename_i hk
      cases hw : s.winners.find? name with
      | none => rfl
      | some w => exact absurd (dropped_eq_nil.1 h ⟨name⟩ w hw) hk
  cases s
  simp only [keepOnly] at hwinners ⊢
  rw [hwinners]

/-! ### Going over to a new state -/

theorem run_bind_of_run {σ α β : Type} {x : StateM σ α} {f : α → StateM σ β} {u u' : σ} {a : α}
    (h : x.run u = (a, u')) : (x >>= f).run u = (f a).run u' := by
  rw [StateT.run_bind, h]
  rfl

variable {σ : Type} {save : Snapshot → StateM σ (Except Snapshot.SaveError Unit)}

theorem advance_saved {α : Type} {s next : Store} {u u' : σ}
    (h : (save next.toSnapshot).run u = (.ok (), u')) (result : α) :
    (advance save s next result).run u = ((.ok result, next), u') := by
  rw [advance, run_bind_of_run h]
  rfl

theorem advance_unsaved {α : Type} {s next : Store} {u u' : σ} {e : Snapshot.SaveError}
    (h : (save next.toSnapshot).run u = (.error e, u')) (result : α) :
    (advance save s next result).run u = ((.error e, s), u') := by
  rw [advance, run_bind_of_run h]
  rfl

/-! ### Replacing a winner -/

/-- Whether a time is later than that of the winner of a scope, if there is one. -/
def Later (s : Store) (scope : Scope) (t : Int64) : Prop :=
  ∀ current, s.winner? scope = some current → current.createdAt < t

theorem later_or_not (s : Store) (scope : Scope) (t : Int64) :
    s.Later scope t ∨ ∃ current, s.winner? scope = some current ∧ t ≤ current.createdAt := by
  cases hw : s.winner? scope with
  | none =>
    refine .inl fun current hcurrent => ?_
    rw [hw] at hcurrent
    cases hcurrent
  | some current =>
    by_cases hle : t ≤ current.createdAt
    · exact .inr ⟨current, rfl, hle⟩
    · refine .inl fun other hother => ?_
      rw [hw] at hother
      cases hother
      exact Int64.not_le.1 hle

theorem decide_of_later {s : Store} {scope : Scope} {t : Int64} (h : s.Later scope t) :
    ∃ superseded, Arbitration.decide scope t ((s.winner? scope).map Winner.createdAt) =
      .ok superseded := by
  cases hwinner : s.winner? scope with
  | none => exact ⟨none, rfl⟩
  | some current => exact ⟨some current.createdAt, if_pos (h current hwinner)⟩

theorem decide_of_le {s : Store} {scope : Scope} {t : Int64} {current : Winner}
    (hwinner : s.winner? scope = some current) (hle : t ≤ current.createdAt) :
    Arbitration.decide scope t ((s.winner? scope).map Winner.createdAt) =
      .error (.stale scope t current.createdAt) := by
  rw [hwinner]
  exact if_neg (Int64.not_lt.2 hle)

theorem replace_of_later {s : Store} {scope : Scope} {w : Winner}
    (h : s.Later scope w.createdAt) :
    s.replace save scope w =
      if s.Room then (do
        let (result, s) ← advance save s (s.accept scope w) (s.seat scope w)
        return (result.mapError .unsaved, s))
      else pure (.error .exhausted, s) := by
  unfold replace
  cases hw : s.winner? scope with
  | none => rfl
  | some current =>
    have hnot : ¬w.createdAt ≤ current.createdAt := Int64.not_le.2 (h current hw)
    simp only [hnot, if_false]

theorem replace_exhausted {s : Store} {scope : Scope} {w : Winner}
    (h : s.Later scope w.createdAt) (hfull : ¬s.Room) (u : σ) :
    (s.replace save scope w).run u = ((.error .exhausted, s), u) := by
  rw [replace_of_later h, if_neg hfull]
  rfl

theorem replace_saved {s : Store} {scope : Scope} {w : Winner} {u u' : σ}
    (h : s.Later scope w.createdAt) (hroom : s.Room)
    (hsave : (save (s.accept scope w).toSnapshot).run u = (.ok (), u')) :
    (s.replace save scope w).run u = ((.ok (s.seat scope w), s.accept scope w), u') := by
  rw [replace_of_later h, if_pos hroom, run_bind_of_run (advance_saved hsave _)]
  rfl

theorem replace_unsaved {s : Store} {scope : Scope} {w : Winner} {u u' : σ}
    {e : Snapshot.SaveError} (h : s.Later scope w.createdAt) (hroom : s.Room)
    (hsave : (save (s.accept scope w).toSnapshot).run u = (.error e, u')) :
    (s.replace save scope w).run u = ((.error (.unsaved e), s), u') := by
  rw [replace_of_later h, if_pos hroom, run_bind_of_run (advance_unsaved hsave _)]
  rfl

theorem replace_not_later {s : Store} {scope : Scope} {w current : Winner}
    (hw : s.winner? scope = some current) (hle : w.createdAt ≤ current.createdAt) (u : σ) :
    (s.replace save scope w).run u =
      ((.error (.notNewer scope w.createdAt current.createdAt), s), u) := by
  simp only [replace, hw, hle, if_true]
  rfl

/-- A replacement is refused for its time, cannot be counted, cannot be saved or takes effect. -/
theorem replace_cases {s s' : Store} {scope : Scope} {w : Winner} {u u' : σ}
    {result : Except ReplaceError Winner}
    (h : (s.replace save scope w).run u = ((result, s'), u')) :
    (∃ current, s.winner? scope = some current ∧ w.createdAt ≤ current.createdAt ∧
      result = .error (.notNewer scope w.createdAt current.createdAt) ∧ s' = s ∧ u' = u) ∨
    s.Later scope w.createdAt ∧
      (¬s.Room ∧ result = .error .exhausted ∧ s' = s ∧ u' = u ∨
        s.Room ∧
          ((∃ e, result = .error (.unsaved e) ∧ s' = s) ∨
            result = .ok (s.seat scope w) ∧ s' = s.accept scope w)) := by
  rcases s.later_or_not scope w.createdAt with hlater | ⟨current, hcurrent, hle⟩
  · refine .inr ⟨hlater, ?_⟩
    by_cases hroom : s.Room
    · rcases hsave : (save (s.accept scope w).toSnapshot).run u with ⟨answer, v⟩
      cases answer with
      | ok _ =>
        rw [replace_saved hlater hroom hsave] at h
        cases h
        exact .inr ⟨hroom, .inr ⟨rfl, rfl⟩⟩
      | error e =>
        rw [replace_unsaved hlater hroom hsave] at h
        cases h
        exact .inr ⟨hroom, .inl ⟨e, rfl, rfl⟩⟩
    · rw [replace_exhausted hlater hroom] at h
      cases h
      exact .inl ⟨hroom, rfl, rfl, rfl⟩
  · rw [replace_not_later hcurrent hle] at h
    cases h
    exact .inl ⟨current, hcurrent, hle, rfl, rfl, rfl⟩

/-! ### Dropping winners -/

theorem retain_nothing {s : Store} {keep : Scope → Bool} (h : s.dropped keep = []) (u : σ) :
    (s.retain save keep).run u = ((.ok [], s), u) := by
  have hempty : (s.scopes.filter fun scope => !keep scope).isEmpty = true := by
    rw [List.isEmpty_iff]
    exact h
  simp only [retain, hempty, if_true]
  rfl

theorem retain_of_dropped {s : Store} {keep : Scope → Bool} (h : s.dropped keep ≠ []) :
    s.retain save keep = advance save s (s.keepOnly keep) (s.dropped keep) := by
  have hempty : (s.scopes.filter fun scope => !keep scope).isEmpty = false := by
    rw [List.isEmpty_eq_false_iff]
    exact h
  simp only [retain, hempty, Bool.false_eq_true, if_false]
  rfl

theorem retain_saved {s : Store} {keep : Scope → Bool} {u u' : σ} (h : s.dropped keep ≠ [])
    (hsave : (save (s.keepOnly keep).toSnapshot).run u = (.ok (), u')) :
    (s.retain save keep).run u = ((.ok (s.dropped keep), s.keepOnly keep), u') := by
  rw [retain_of_dropped h, advance_saved hsave]

theorem retain_unsaved {s : Store} {keep : Scope → Bool} {u u' : σ} {e : Snapshot.SaveError}
    (h : s.dropped keep ≠ [])
    (hsave : (save (s.keepOnly keep).toSnapshot).run u = (.error e, u')) :
    (s.retain save keep).run u = ((.error e, s), u') := by
  rw [retain_of_dropped h, advance_unsaved hsave]

end Rollout.Store
