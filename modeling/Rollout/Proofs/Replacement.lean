import Rollout.Proofs.Convergence
import Rollout.Proofs.Series

/-!
# Replacing a winner

An accepted document replaces the previous winner of its scope as a whole.  The plan that is handed
over has the components of the document laid over those of all other winners that its pass keeps, so
nothing of the previous winner is left: what it alone named is gone, and what it had overridden is
again what the other scopes make of it.
-/

namespace Rollout.Pipeline

variable {σ : Type} {env : Surroundings (StateM σ)} {p : Pipeline} {t : Turn σ}

/-! ### What is left of the other winners -/

/-- The winners of other scopes that a turn leaves. -/
def others (env : Surroundings (StateM σ)) (p : Pipeline) (t : Turn σ) (scope : Scope) : Store :=
  p.store.keepOnly fun other => other ≠ scope ∧ ((t.next env p).store.winner? other).isSome

theorem winner?_others (scope other : Scope) {w : Winner} :
    (others env p t scope).winner? other = some w ↔
      other ≠ scope ∧ p.store.winner? other = some w ∧
        ((t.next env p).store.winner? other).isSome = true := by
  rw [others, Store.winner?_keepOnly]
  split <;> rename_i hkeep <;> simp only [decide_eq_true_eq] at hkeep
  · simp [hkeep]
  · simp only [reduceCtorEq, false_iff]
    exact fun hall => hkeep ⟨hall.1, hall.2.2⟩

theorem winners_others {scope : Scope} {d : Document} (h : TakesEffect env p t scope d) :
    (others env p t scope).winners = ((t.next env p).store.keepOnly (· ≠ scope)).winners := by
  refine NameMap.ext_find? fun name => ?_
  show (others env p t scope).winner? ⟨name⟩ = (Store.keepOnly _ _).winner? ⟨name⟩
  refine Option.ext fun w => ?_
  rw [winner?_others, Store.winner?_keepOnly]
  by_cases hname : (⟨name⟩ : Scope) = scope
  · simp [hname]
  · simp only [hname, ne_eq, not_false_eq_true, decide_true, if_true, true_and]
    rcases h.others ⟨name⟩ hname with hkept | ⟨hgone, -⟩
    · rw [hkept]
      refine ⟨fun hw => hw.1, fun hw => ⟨hw, ?_⟩⟩
      rw [hw]
      rfl
    · simp [hgone]

/-! ### The plan -/

theorem effective_next (hsound : p.store.Sound) {d : Document} {groups : NameSet}
    {place : Hierarchy.Place} {pass : Pass} {answer : Except ApplyFailure Unit}
    (hends : t.Ends env p (.accepted d groups place pass answer)) :
    (t.next env p).store.effective =
      (others env p t place.scope).effective.overlay (.ofDocument place.scope d) := by
  have heffect := takesEffect hends
  have hnew : (t.next env p).store.winner? place.scope =
      some (p.store.seat place.scope (.ofDocument place.scope d)) := by
    rw [hends.next]
    exact Verdict.winner?_next_self p d groups place pass answer
  have hlatest : ∀ other w, other ≠ place.scope → (t.next env p).store.winner? other = some w →
      w.sequence < p.store.nextSequence := by
    intro other w hne hw
    rcases heffect.others other hne with hkept | ⟨hgone, -⟩
    · rw [hkept] at hw
      exact (hsound other.name w hw).2
    · rw [hgone] at hw
      cases hw
  rw [Store.effective_eq_overlay hnew hlatest, Store.effective_congr (winners_others heffect)]
  rfl

section Overlay

variable (set : EffectiveSet) (scope : Scope) (d : Document) (name : String)

theorem versions_overlay :
    (set.overlay (.ofDocument scope d)).versions.find? name =
      (d.components.find? name).or (set.versions.find? name) := by
  show (set.versions.insertAll (Winner.ofDocument scope d).versions.entries).find? name = _
  rw [Winner.versions_ofDocument, NameMap.find?_insertAll_entries]

theorem sources_overlay :
    (set.overlay (.ofDocument scope d)).sources.find? name =
      ((d.components.find? name).map fun _ => scope).or (set.sources.find? name) := by
  simp only [EffectiveSet.overlay, NameMap.find?_insertAll_entries, NameMap.find?_mapValues,
    Winner.ofDocument, Option.map_map]
  rfl

end Overlay

theorem exists_deciding {s : Store} (hsound : s.Sound) {name : String} {scope : Scope} {w : Winner}
    (hw : s.winner? scope = some w) (hnames : w.components.find? name ≠ none) :
    ∃ scope' w' c', s.winner? scope' = some w' ∧ w'.components.find? name = some c' ∧
      s.effective.versions.find? name = some c'.version ∧
      s.effective.sources.find? name = some scope' ∧
      ∀ other w'', s.winner? other = some w'' → w''.components.find? name ≠ none →
        w''.sequence ≤ w'.sequence := by
  cases hdecide : EffectiveSet.deciding? s.inOrder name with
  | none =>
    have hnone := EffectiveSet.deciding?_eq_none.1 hdecide w (mem_inOrder_store.2 ⟨scope, hw⟩)
    exact absurd hnone hnames
  | some decided =>
    obtain ⟨w', c'⟩ := decided
    obtain ⟨hmem, hc'⟩ := EffectiveSet.mem_of_deciding? hdecide
    obtain ⟨scope', hw'⟩ := mem_inOrder_store.1 hmem
    have hscope : w'.scope = scope' := by
      have hname := (hsound scope'.name w' hw').1
      cases scope'
      cases hkey : w'.scope
      rw [hkey] at hname
      exact congrArg Scope.mk hname
    refine ⟨scope', w', c', hw', hc', ?_, ?_, ?_⟩
    · rw [Store.effective_eq_foldl, EffectiveSet.find?_versions_foldl, hdecide]
      rfl
    · rw [Store.effective_eq_foldl, EffectiveSet.find?_sources_foldl, hdecide, ← hscope]
      rfl
    · intro other w'' hw'' hnames''
      have hsorted := EffectiveSet.pairwise_inOrder s.winners.values
      exact EffectiveSet.sequence_le_of_deciding? hsorted hdecide w''
        (mem_inOrder_store.2 ⟨other, hw''⟩) hnames''

theorem find?_effective_of_none {s : Store} {name : String}
    (h : ∀ scope w, s.winner? scope = some w → w.components.find? name = none) :
    s.effective.versions.find? name = none ∧ s.effective.sources.find? name = none := by
  have hdecide : EffectiveSet.deciding? s.inOrder name = none := by
    refine EffectiveSet.deciding?_eq_none.2 fun w hmem => ?_
    obtain ⟨scope, hw⟩ := mem_inOrder_store.1 hmem
    exact h scope w hw
  rw [Store.effective_eq_foldl, EffectiveSet.find?_versions_foldl,
    EffectiveSet.find?_sources_foldl, hdecide]
  exact ⟨rfl, rfl⟩

/-- The plan of an accepted document has its components laid over those of the other winners that
the turn leaves.  So each of its own components has its version and comes from its scope.  Of the
components that it does not name, one that no other winner named is gone, and one that another
winner names that the turn leaves has the version and the source that these winners give it: those
of the latest of them that names it. -/
theorem accepted_document_replaces_winner (env : Surroundings (StateM σ)) {p : Pipeline}
    (hreachable : p.store.Reachable) {t : Turn σ} {d : Document} {scope : Scope}
    (hd : t.deployment.document = .ok d) (hforce : BringsIntoForce env p t scope) :
    ∃ plan, plans (t.events env p) = [plan] ∧ plan.deployment = d.id ∧ plan.scope = scope ∧
      plan.components = (others env p t scope).effective.overlay (.ofDocument scope d) ∧
      (∀ name version, d.components.find? name = some version →
        plan.components.versions.find? name = some version ∧
        plan.components.sources.find? name = some scope) ∧
      (∀ name, d.components.find? name = none →
        plan.components.versions.find? name =
          (others env p t scope).effective.versions.find? name ∧
        plan.components.sources.find? name =
          (others env p t scope).effective.sources.find? name) ∧
      (∀ name, d.components.find? name = none →
        (∀ other w, other ≠ scope → p.store.winner? other = some w →
          w.components.find? name = none) →
        plan.components.versions.find? name = none ∧
        plan.components.sources.find? name = none) ∧
      (∀ name other w, d.components.find? name = none →
        (others env p t scope).winner? other = some w → w.components.find? name ≠ none →
        ∃ source w' c, (others env p t scope).winner? source = some w' ∧
          w'.components.find? name = some c ∧
          plan.components.versions.find? name = some c.version ∧
          plan.components.sources.find? name = some source ∧
          ∀ other' w'', (others env p t scope).winner? other' = some w'' →
            w''.components.find? name ≠ none → w''.sequence ≤ w'.sequence) := by
  obtain ⟨v, hends⟩ := t.ends env p
  obtain ⟨hscope, d', groups, place, pass, answer, rfl⟩ := (bringsIntoForce_iff hends).1 hforce
  cases hends.fits.1.document.symm.trans hd
  cases hscope
  have hsound := hreachable.sound
  have heffective := effective_next hsound hends
  have hplans := plans_of_accepted hends
  refine ⟨_, hplans, rfl, rfl, heffective, ?_, ?_, ?_, ?_⟩
  all_goals simp only [Plan.make, heffective, versions_overlay, sources_overlay]
  · intro name version hversion
    rw [hversion]
    exact ⟨rfl, rfl⟩
  · intro name hnone
    rw [hnone]
    exact ⟨rfl, rfl⟩
  · intro name hnone hothers
    rw [hnone]
    refine find?_effective_of_none fun other w hw => ?_
    obtain ⟨hne, hbefore, -⟩ := (winner?_others place.scope other).1 hw
    exact hothers other w hne hbefore
  · intro name other w hnone hw hnames
    rw [hnone]
    exact exists_deciding (hsound.keepOnly _) hw hnames

/-- The second document for a group takes back what the first one had put over another group. -/
theorem overridden_component_reappears :
    let env := quiet (.ofList ["thinggroup/a", "thinggroup/b"])
    let start := start ⟨.empty, true⟩ .empty (.ofList ["thinggroup/a", "thinggroup/b"])
    let lower : Turn Unit := ⟨⟨.jobs, .document { bare "d1" "thinggroup/a" 1 with
      components := .ofList [("Shared", "1.0.0")] }⟩, ()⟩
    let upper : Turn Unit := ⟨⟨.jobs, .document { bare "d2" "thinggroup/b" 1 with
      components := .ofList [("Own", "1.0.0"), ("Shared", "2.0.0")] }⟩, ()⟩
    let t : Turn Unit := ⟨⟨.jobs, .document (bare "d3" "thinggroup/b" 2)⟩, ()⟩
    ∃ before after, plans (upper.events env (run env start [lower])) = [before] ∧
      plans (t.events env (run env start [lower, upper])) = [after] ∧
      before.components.sources.find? "Shared" = some ⟨"thinggroup/b"⟩ ∧
      after.components.sources.find? "Shared" = some ⟨"thinggroup/a"⟩ ∧
      after.components.versions.find? "Shared" = some "1.0.0" ∧
      before.components.versions.find? "Own" = some "1.0.0" ∧
      after.components.versions.find? "Own" = none := by
  intro env start lower upper t
  have hfirst : (run env start [lower]).store.Reachable := reachable_run _ _ .empty
  have hsecond : (run env start [lower, upper]).store.Reachable := reachable_run _ _ .empty
  have hupper : BringsIntoForce env (run env start [lower]) upper ⟨"thinggroup/b"⟩ := by
    decide +kernel
  have ht : BringsIntoForce env (run env start [lower, upper]) t ⟨"thinggroup/b"⟩ := by
    decide +kernel
  obtain ⟨before, hbefore, -, -, -, hown, -⟩ :=
    accepted_document_replaces_winner env hfirst rfl hupper
  obtain ⟨after, hafter, -, -, -, -, -, hgone, hback⟩ :=
    accepted_document_replaces_winner env hsecond rfl ht
  have hlower : (others env (run env start [lower, upper]) t ⟨"thinggroup/b"⟩).winner?
      ⟨"thinggroup/a"⟩ = some ⟨⟨"thinggroup/a"⟩, "d1", "thinggroup/a", 1, 0,
        .ofList [("Shared", ⟨"1.0.0", "thinggroup/a", "d1"⟩)]⟩ := by
    decide +kernel
  have honly : (others env (run env start [lower, upper]) t ⟨"thinggroup/b"⟩).scopes =
      [⟨"thinggroup/a"⟩] := by
    decide +kernel
  obtain ⟨source, w, c, hw, hc, hversion, hsource, -⟩ :=
    hback "Shared" ⟨"thinggroup/a"⟩ _ rfl hlower (by decide +kernel)
  have hscope := Store.mem_scopes.2 ⟨w, hw⟩
  rw [honly, List.mem_singleton] at hscope
  subst hscope
  cases hlower.symm.trans hw
  cases hc
  refine ⟨before, after, hbefore, hafter, ?_, hsource, hversion, ?_, ?_⟩
  · exact (hown "Shared" "2.0.0" (by decide +kernel)).2
  · exact (hown "Own" "1.0.0" (by decide +kernel)).1
  · refine (hgone "Own" rfl fun other w' hne hw' => ?_).1
    have hmem := Store.mem_scopes.2 ⟨w', hw'⟩
    have hscopes : (run env start [lower, upper]).store.scopes =
        [⟨"thinggroup/a"⟩, ⟨"thinggroup/b"⟩] := by
      decide +kernel
    rw [hscopes] at hmem
    simp only [List.mem_cons, hne, List.not_mem_nil, or_false] at hmem
    subst hmem
    obtain ⟨-, hkept, -⟩ := (winner?_others _ _).1 hlower
    cases hkept.symm.trans hw'
    rfl

end Rollout.Pipeline
