import Rollout.Proofs.Shape.RoundTrip
import Rollout.Proofs.Storage.Swaps
import Rollout.Proofs.Store.Changes

/-!
# Saving and loading a snapshot

What saving does to the content of the snapshot file and what loading makes of that content, for
file operations of which little is assumed: any of them may fail, but a file is replaced as a whole
or not at all.
-/

namespace Rollout

/-! ### The content of a snapshot file -/

theorem NameMap.forall_entries_mapValues {α β : Type} {f : String → α → β} {table : NameMap α}
    {p : String × β → Prop} (h : ∀ e ∈ table.entries, p (e.1, f e.1 e.2)) :
    ∀ e ∈ (table.mapValues f).entries, p e := by
  intro e he
  obtain ⟨e', he', rfl⟩ := List.mem_map.1 he
  exact h e' he'

theorem Contribution.faithful (c : Contribution) :
    (Shaped.shape Contribution).Faithful (Shaped.toCarrier c) := by
  refine ⟨by decide, ?_⟩
  exact ⟨trivial, trivial, trivial, trivial⟩

theorem Winner.faithful (w : Winner) : (Shaped.shape Winner).Faithful (Shaped.toCarrier w) := by
  refine ⟨by decide, trivial, trivial, trivial, trivial, fun _ _ => trivial, ?_, trivial⟩
  exact NameMap.forall_entries_mapValues fun e _ => e.2.faithful

namespace Snapshot

theorem faithful (s : Snapshot) : (Shaped.shape Snapshot).Faithful (Shaped.toCarrier s) := by
  refine ⟨by decide, trivial, fun _ _ => trivial, ?_, trivial⟩
  rintro x hx
  cases hx
  exact NameMap.forall_entries_mapValues fun e _ => e.2.faithful

/-- A snapshot without a flaw is read back from its bytes. -/
theorem ofBytes_toBytes {s : Snapshot} (h : s.flaw? = none) (path : String) :
    ofBytes path s.toBytes = .ok s := by
  rw [ofBytes, toBytes, Shaped.parseSymbols_decode_encode s.faithful]
  simp only [h]

theorem flaw?_of_ofBytes {path : String} {content : List UInt8} {s : Snapshot}
    (h : ofBytes path content = .ok s) : s.flaw? = none := by
  unfold ofBytes at h
  split at h
  · cases h
  · split at h
    · cases h
    · cases h
      assumption

/-! ### Saving -/

section Saving

variable {σ : Type} {files : Storage.Files (StateM σ)} {content : σ → Storage.Contents}
  {path tag : String}

theorem content_save (h : Storage.Swaps files content path (temporary path tag)) (s : Snapshot)
    (u : σ) :
    (∃ u', (save files path tag s).run u = (.ok (), u') ∧ content u' path = some (.ok s.toBytes)) ∨
    (∃ e u', (save files path tag s).run u = (.error e, u') ∧
      content u' path = content u path) := by
  have hmake := h.makeDirectory u
  cases hdirectory : (files.makeDirectory (Path.parent path)).run u with
  | mk r₁ u₁ =>
    rw [hdirectory] at hmake
    cases r₁ with
    | error e =>
      refine .inr ⟨.directory (Path.parent path) e, u₁, ?_, hmake⟩
      rw [save, Store.run_bind_of_run hdirectory]
      rfl
    | ok _ =>
      have hwrite := h.write s.toBytes u₁
      cases htemporary : (files.write (temporary path tag) s.toBytes).run u₁ with
      | mk r₂ u₂ =>
        rw [htemporary] at hwrite
        cases r₂ with
        | error e =>
          refine .inr ⟨.temporary (temporary path tag) e, u₂, ?_, hwrite.trans hmake⟩
          rw [save, Store.run_bind_of_run hdirectory]
          dsimp only
          rw [Store.run_bind_of_run htemporary]
          rfl
        | ok _ =>
          cases hrename : (files.rename (temporary path tag) path).run u₂ with
          | mk r₃ u₃ =>
            cases r₃ with
            | error e =>
              refine .inr ⟨.rename (temporary path tag) e, u₃, ?_,
                (h.kept hrename).trans (hwrite.trans hmake)⟩
              rw [save, Store.run_bind_of_run hdirectory]
              dsimp only
              rw [Store.run_bind_of_run htemporary]
              dsimp only
              rw [Store.run_bind_of_run hrename]
              rfl
            | ok _ =>
              refine .inl ⟨u₃, ?_, (h.renamed hrename).trans (h.written htemporary)⟩
              rw [save, Store.run_bind_of_run hdirectory]
              dsimp only
              rw [Store.run_bind_of_run htemporary]
              dsimp only
              rw [Store.run_bind_of_run hrename]
              rfl

end Saving

end Snapshot

/-! ### Loading -/

namespace Store

/-- The store that is opened from what stands at the path of the snapshot file. -/
def ofContent (path : String) :
    Option (Except Storage.FileError (List UInt8)) → Except Snapshot.LoadError Store
  | none => .ok empty
  | some (.error e) => .error (.unreadable path e)
  | some (.ok bytes) => (Snapshot.ofBytes path bytes).map ofSnapshot

theorem run_load {σ : Type} {files : Storage.Files (StateM σ)}
    {content : σ → Storage.Contents} {path : String}
    (h : Storage.Shows files content path) (u : σ) :
    (load files path).run u = (ofContent path (content u path), u) := by
  have hthere := h.isThere u
  cases hcontent : content u path with
  | none =>
    rw [hcontent] at hthere
    rw [load, Snapshot.load, bind_assoc, run_bind_of_run hthere]
    rfl
  | some found =>
    rw [hcontent] at hthere
    rw [load, Snapshot.load, bind_assoc, run_bind_of_run hthere]
    simp only [Option.isSome_some, Bool.not_true, Bool.false_eq_true, if_false]
    rw [bind_assoc, run_bind_of_run (h.read hcontent)]
    cases found with
    | error e => rfl
    | ok bytes =>
      simp only [pure_bind, ofContent]
      cases Snapshot.ofBytes path bytes with
      | error e => rfl
      | ok s => rfl

/-! ### What a saved store loads as -/

theorem ofContent_toBytes {s : Store} (h : s.toSnapshot.flaw? = none) (path : String) :
    ofContent path (some (.ok s.toSnapshot.toBytes)) = .ok s := by
  rw [ofContent, Snapshot.ofBytes_toBytes h]
  rfl

theorem toSnapshot_ofSnapshot {s : Snapshot} (h : s.flaw? = none) :
    (ofSnapshot s).toSnapshot = s := by
  unfold Snapshot.flaw? at h
  split at h
  · cases h
  · rename_i hversion
    rw [ofSnapshot, toSnapshot, ← Decidable.not_not.1 hversion]

/-- A store that was opened passes the check of snapshots. -/
theorem flaw?_of_ofContent {path : String}
    {content : Option (Except Storage.FileError (List UInt8))} {s : Store}
    (h : ofContent path content = .ok s) : s.toSnapshot.flaw? = none := by
  cases content with
  | none =>
    cases h
    rfl
  | some found =>
    cases found with
    | error e => cases h
    | ok bytes =>
      rw [ofContent] at h
      cases hread : Snapshot.ofBytes path bytes with
      | error e =>
        rw [hread] at h
        cases h
      | ok snapshot =>
        rw [hread] at h
        cases h
        have hflaw := Snapshot.flaw?_of_ofBytes hread
        rw [toSnapshot_ofSnapshot hflaw]
        exact hflaw

end Store

end Rollout
