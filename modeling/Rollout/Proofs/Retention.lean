import Mathlib.Data.List.Induction
import Rollout.Proofs.Departure
import Rollout.Proofs.Effects

/-!
# What pruning keeps

A winner is only ever dropped by a pass that holds, and only if it is due: its group was read before
and is not read now, and it is neither exempt nor just accepted.  A pass that fails drops nothing
and forgets nothing, so what was due stays due until a pass holds.
-/

namespace Rollout.Pipeline

variable {σ : Type} {env : Surroundings (StateM σ)}

/-- Whether a winner is to be dropped in the pass after an acceptance that reads some groups. -/
structure Due (p : Pipeline) (groups : NameSet) (accepted scope : Scope) : Prop where
  remembered : scope.name ∈ p.observed
  left : scope.name ∉ groups
  other : scope ≠ accepted
  notDevice : ¬"thing/".toList <+: scope.name.toList
  notLocal : scope.name ≠ "LOCAL_DEPLOYMENT"

theorem isExempt_eq_false_iff {scope : Scope} :
    scope.isExempt = false ↔
      ¬"thing/".toList <+: scope.name.toList ∧ scope.name ≠ "LOCAL_DEPLOYMENT" := by
  rw [Scope.isExempt, Bool.or_eq_false_iff, ← Bool.not_eq_true, List.isPrefixOf_iff_prefix,
    decide_eq_false_iff_not]
  rfl

theorem due_of_keeps {p : Pipeline} {groups : NameSet} {accepted scope : Scope}
    (h : Pass.keeps accepted p groups scope = false) : Due p groups accepted scope := by
  have hall := h
  simp only [Pass.keeps, stays, Bool.or_eq_false_iff, decide_eq_false_iff_not] at hall
  obtain ⟨⟨hne, hexempt⟩, -⟩ := hall
  obtain ⟨hremembered, hleft⟩ := (stays_eq_false_iff hexempt hne).1 h
  obtain ⟨hdevice, hlocal⟩ := isExempt_eq_false_iff.1 hexempt
  exact ⟨hremembered, hleft, hne, hdevice, hlocal⟩

/-! ### One turn -/

theorem due_of_gone {p : Pipeline} {t : Turn σ} {scope : Scope} {w : Winner}
    (hw : p.store.winner? scope = some w) (hgone : (t.next env p).store.winner? scope = none) :
    p.policy.prunes = true ∧ ∃ accepted groups, BringsIntoForce env p t accepted ∧
      reading? (t.events env p) = some ⟨groups, true⟩ ∧ Drops scope (t.events env p) ∧
      Due p groups accepted scope := by
  obtain ⟨v, hends⟩ := t.ends env p
  rw [hends.next] at hgone
  rcases Verdict.refused_or_accepted hends.fits with ⟨-, hsame⟩ | haccepted
  · rw [hsame, hw] at hgone
    cases hgone
  · obtain ⟨d, asked, place, pass, answer, rfl⟩ := haccepted
    obtain ⟨-, -, -, hpass⟩ := hends.fits
    have hne : scope ≠ place.scope := by
      rintro rfl
      rw [Verdict.winner?_next_self] at hgone
      cases hgone
    have hbefore := (Verdict.winner?_committed_of_ne p d hne).trans hw
    rcases Pass.kept_or_dropped hpass scope with hkept | ⟨groups, _, rfl, hprunes, -, hdropped, -⟩
    · exact absurd (hgone.symm.trans (hkept.trans hbefore)) (Option.some_ne_none w).symm
    · refine ⟨hprunes, place.scope, groups, ?_, ?_, ?_, due_of_keeps hdropped⟩
      · exact (bringsIntoForce_iff hends).2 ⟨rfl, d, asked, place, .done groups, answer, rfl⟩
      · rw [hends.events]
        exact reading?_accepted p d asked place _ answer
      · rw [hends.events]
        exact drops_of_pass hbefore hdropped asked answer

/-- What a turn leaves behind whose pass failed: the document is in force and nothing else has
changed. -/
structure OnlyAccepts (env : Surroundings (StateM σ)) (p : Pipeline) (t : Turn σ) (scope : Scope)
    (d : Document) : Prop where
  force : BringsIntoForce env p t scope
  next : t.next env p = { p with store := p.store.accept scope (.ofDocument scope d) }
  applies : ∃ plan, plans (t.events env p) = [plan]

theorem OnlyAccepts.winners_kept {p : Pipeline} {t : Turn σ} {scope : Scope} {d : Document}
    (h : OnlyAccepts env p t scope d) (other : Scope) {w : Winner}
    (hw : p.store.winner? other = some w) :
    ∃ w', (t.next env p).store.winner? other = some w' ∧ (other ≠ scope → w' = w) := by
  rw [h.next]
  dsimp only
  rw [Store.winner?_accept]
  split
  · rename_i heq
    exact ⟨_, rfl, fun hne => absurd heq hne⟩
  · exact ⟨w, hw, fun _ => rfl⟩

theorem onlyAccepts_of_failed {p : Pipeline} {t : Turn σ} {groups : NameSet}
    (h : reading? (t.events env p) = some ⟨groups, false⟩) :
    ∃ d scope, t.deployment.document = .ok d ∧ OnlyAccepts env p t scope d := by
  obtain ⟨v, hends⟩ := t.ends env p
  by_cases haccepted : v.Accepted
  · obtain ⟨d, asked, place, pass, answer, rfl⟩ := haccepted
    have hpass := h
    rw [hends.events, reading?_accepted] at hpass
    cases pass with
    | off => cases hpass
    | done read => cases hpass
    | unsaved read e =>
      refine ⟨d, place.scope, hends.fits.1.document, ?_, hends.next, _, plans_of_accepted hends⟩
      exact (bringsIntoForce_iff hends).2 ⟨rfl, d, asked, place, _, answer, rfl⟩
  · rw [hends.events, reading?_refused p haccepted] at h
    cases h

/-! ### Runs -/

/-- All groups that were read until some turn, from the building of the pipeline on. -/
def readings (built : NameSet) (journals : List (List Event)) : List NameSet :=
  built :: journals.filterMap fun events => (reading? events).map Reading.groups

theorem lastHeld_mem_readings (built : NameSet) (journals : List (List Event)) :
    lastHeld built journals ∈ readings built journals := by
  have hsubset : ∀ groups ∈ journals.filterMap heldReading?,
      groups ∈ journals.filterMap fun events => (reading? events).map Reading.groups := by
    intro groups hgroups
    obtain ⟨events, hevents, hheld⟩ := List.mem_filterMap.1 hgroups
    obtain ⟨reading, hreading, hif⟩ := Option.bind_eq_some_iff.1 hheld
    refine List.mem_filterMap.2 ⟨events, hevents, ?_⟩
    rw [hreading]
    split at hif
    · exact hif
    · cases hif
  have hlast : lastHeld built journals ∈ built :: journals.filterMap heldReading? :=
    List.getLastD_mem_cons
  rcases List.mem_cons.1 hlast with hbuilt | hheld
  · exact List.mem_cons.2 (.inl hbuilt)
  · exact List.mem_cons_of_mem _ (hsubset _ hheld)

theorem journals_append (p : Pipeline) (before after : List (Turn σ)) :
    journals env p (before ++ after) =
      journals env p before ++ journals env (run env p before) after := by
  induction before generalizing p with
  | nil => rfl
  | cons t before ih =>
    simp only [List.cons_append, journals, run_cons]
    rw [ih]

theorem mem_readings_append {p : Pipeline} {before after : List (Turn σ)} {groups : NameSet}
    (h : groups ∈ readings p.observed (journals env p before)) :
    groups ∈ readings p.observed (journals env p (before ++ after)) := by
  rw [journals_append, readings, List.filterMap_append, ← List.cons_append]
  exact List.mem_append_left _ h

theorem observed_mem_readings (env : Surroundings (StateM σ)) (p : Pipeline)
    (turns : List (Turn σ)) :
    (run env p turns).observed ∈ readings p.observed (journals env p turns) := by
  rw [observed_run]
  exact lastHeld_mem_readings _ _

theorem mem_readings_run {p : Pipeline} {before after : List (Turn σ)} {groups : NameSet}
    (h : groups ∈ readings (run env p before).observed
      (journals env (run env p before) after)) :
    groups ∈ readings p.observed (journals env p (before ++ after)) := by
  rcases List.mem_cons.1 h with rfl | hafter
  · exact mem_readings_append (observed_mem_readings env p before)
  · rw [journals_append, readings, List.filterMap_append, ← List.cons_append]
    exact List.mem_append_right _ hafter

/-- A winner stays through a run that never reads its group, and on a device that drops nothing. -/
theorem winner_kept_run {p : Pipeline} {scope : Scope} {turns : List (Turn σ)}
    (hsafe : p.policy.prunes = false ∨
      ∀ groups ∈ readings p.observed (journals env p turns), scope.name ∉ groups)
    (h : ∃ w, p.store.winner? scope = some w) :
    ∃ w, (run env p turns).store.winner? scope = some w := by
  -- from the last turn backwards: what its pass remembers was read in the turns before it
  induction turns using List.reverseRecOn with
  | nil => exact h
  | append_singleton before t ih =>
    obtain ⟨w, hw⟩ := ih (hsafe.imp_right fun hnever groups hgroups =>
      hnever groups (mem_readings_append hgroups))
    rw [run_append, run_cons, run_nil]
    cases hnext : (t.next env (run env p before)).store.winner? scope with
    | some w' => exact ⟨w', rfl⟩
    | none =>
      obtain ⟨hprunes, accepted, groups, -, -, -, hdue⟩ := due_of_gone hw hnext
      rw [policy_run] at hprunes
      rcases hsafe with hoff | hnever
      · exact absurd (hprunes.symm.trans hoff) (by decide)
      · have hread : (run env p before).observed ∈
            readings p.observed (journals env p (before ++ [t])) :=
          mem_readings_append (observed_mem_readings env p before)
        exact absurd hdue.remembered (hnever _ hread)

theorem observed_run_of_no_pass {p : Pipeline} {turns : List (Turn σ)}
    (h : ∀ events ∈ journals env p turns, heldReading? events = none) :
    (run env p turns).observed = p.observed := by
  rw [observed_run, lastHeld, List.filterMap_eq_nil_iff.2 h]
  rfl

/-- What is due when a pass fails is gone after the next pass that holds, unless the group is back
or has a new winner. -/
theorem gone_after_next_pass {p : Pipeline} {t t' : Turn σ} {between : List (Turn σ)}
    {accepted accepted' scope : Scope} {groups groups' : NameSet}
    (hfailed : reading? (t.events env p) = some ⟨groups, false⟩)
    (hdue : Due p groups accepted scope)
    (hbetween : ∀ events ∈ journals env (t.next env p) between, heldReading? events = none)
    (hforce : BringsIntoForce env (run env (t.next env p) between) t' accepted')
    (hheld : reading? (t'.events env (run env (t.next env p) between)) = some ⟨groups', true⟩)
    (hleft : scope.name ∉ groups') (hne : scope ≠ accepted') :
    (t'.next env (run env (t.next env p) between)).store.winner? scope = none := by
  obtain ⟨d, accepted'', -, haccepts⟩ := onlyAccepts_of_failed hfailed
  have hobserved : (run env (t.next env p) between).observed = p.observed := by
    rw [observed_run_of_no_pass hbetween, haccepts.next]
  have hexempt := isExempt_eq_false_iff.2 ⟨hdue.notDevice, hdue.notLocal⟩
  have hheld' : heldReading? (t'.events env (run env (t.next env p) between)) = some groups' := by
    rw [heldReading?, hheld]
    rfl
  rw [winner?_next_of_held hforce hheld' hexempt hne hleft, hobserved]
  exact if_pos hdue.remembered

/-- Pruning on a device that was built with some groups, after any turns.  A winner disappears only
in a pass that holds and only if it is due, and what is due has been read before.  So a winner whose
group was never read stays, and every winner on a device that drops nothing.  A pass that fails
leaves all winners and what is remembered, and its deployment goes on to be applied; what was due in
it is gone after the next pass that holds, unless the group is back or has just been accepted. -/
theorem pruning_keeps_and_retries (env : Surroundings (StateM σ)) (policy : Policy) (store : Store)
    (built : NameSet) (before : List (Turn σ)) (t : Turn σ) :
    let start := start policy store built
    let p := run env start before
    (∀ scope w, p.store.winner? scope = some w → (t.next env p).store.winner? scope = none →
      policy.prunes = true ∧ ∃ accepted groups, BringsIntoForce env p t accepted ∧
        reading? (t.events env p) = some ⟨groups, true⟩ ∧ Drops scope (t.events env p) ∧
        Due p groups accepted scope ∧
        ∃ read ∈ readings built (journals env start before), scope.name ∈ read) ∧
    (∀ scope early late, before = early ++ late →
      policy.prunes = false ∨
        (∀ read ∈ readings built (journals env start before), scope.name ∉ read) →
      (∃ w, (run env start early).store.winner? scope = some w) →
      ∃ w, p.store.winner? scope = some w) ∧
    (∀ groups, reading? (t.events env p) = some ⟨groups, false⟩ →
      ∃ d accepted, t.deployment.document = .ok d ∧ OnlyAccepts env p t accepted d ∧
        (∀ scope w, p.store.winner? scope = some w →
          ∃ w', (t.next env p).store.winner? scope = some w' ∧ (scope ≠ accepted → w' = w)) ∧
        (t.next env p).observed = p.observed) ∧
    (∀ groups accepted scope between t' accepted' groups',
      let q := run env (t.next env p) between
      reading? (t.events env p) = some ⟨groups, false⟩ → Due p groups accepted scope →
      (∀ events ∈ journals env (t.next env p) between, heldReading? events = none) →
      BringsIntoForce env q t' accepted' → reading? (t'.events env q) = some ⟨groups', true⟩ →
      scope.name ∉ groups' → scope ≠ accepted' →
      (t'.next env q).store.winner? scope = none) := by
  intro start p
  refine ⟨?_, ?_, ?_, ?_⟩
  · intro scope w hw hgone
    obtain ⟨hprunes, accepted, groups, hforce, hreading, hdrops, hdue⟩ := due_of_gone hw hgone
    rw [policy_run] at hprunes
    exact ⟨hprunes, accepted, groups, hforce, hreading, hdrops, hdue, p.observed,
      observed_mem_readings env start before, hdue.remembered⟩
  · rintro scope early late rfl hsafe h
    have hlate : (run env start early).policy.prunes = false ∨
        ∀ groups ∈ readings (run env start early).observed
          (journals env (run env start early) late), scope.name ∉ groups := by
      rw [policy_run]
      exact hsafe.imp_right fun hnever groups hgroups => hnever groups (mem_readings_run hgroups)
    have hkept := winner_kept_run hlate h
    rw [← run_append] at hkept
    exact hkept
  · intro groups hfailed
    obtain ⟨d, accepted, hd, haccepts⟩ := onlyAccepts_of_failed hfailed
    refine ⟨d, accepted, hd, haccepts, fun scope w hw => haccepts.winners_kept scope hw, ?_⟩
    rw [haccepts.next]
  · intro groups accepted scope between t' accepted' groups' q
    exact gone_after_next_pass

/-- The winner of a group that was left stays in a pass that fails and is gone after the next. -/
theorem pruning_retried_after_failed_pass :
    let start := start ⟨.empty, true⟩ .empty (.ofList ["thinggroup/a"])
    let joined := scriptedTurn (bare "a1" "thinggroup/a" 1) ["thinggroup/a"] []
    let failing := scriptedTurn (bare "l1" "LOCAL_DEPLOYMENT" 2) [] [true, false]
    let holding := scriptedTurn (bare "l2" "LOCAL_DEPLOYMENT" 3) [] []
    let p := run scripted start [joined]
    let q := failing.next scripted p
    (∃ w, p.store.winner? ⟨"thinggroup/a"⟩ = some w ∧
        q.store.winner? ⟨"thinggroup/a"⟩ = some w) ∧
      (holding.next scripted q).store.winner? ⟨"thinggroup/a"⟩ = none := by
  intro start joined failing holding p q
  have hfailed : reading? (failing.events scripted p) = some ⟨.empty, false⟩ := by decide +kernel
  have hheld : reading? (holding.events scripted q) = some ⟨.empty, true⟩ := by decide +kernel
  have hforce : BringsIntoForce scripted q holding ⟨"LOCAL_DEPLOYMENT"⟩ := by decide +kernel
  have hfailing : ∀ scope, BringsIntoForce scripted p failing scope →
      scope = ⟨"LOCAL_DEPLOYMENT"⟩ := by
    intro scope h
    exact (winner?_of_bringsIntoForce rfl h).1
  have hremembered : p.observed = .ofList ["thinggroup/a"] := by decide +kernel
  have hdue : Due p .empty ⟨"LOCAL_DEPLOYMENT"⟩ ⟨"thinggroup/a"⟩ := by
    refine ⟨?_, NameSet.not_mem_empty, by decide, by decide, by decide⟩
    rw [hremembered, NameSet.mem_ofList]
    exact List.mem_singleton_self _
  have hall := pruning_keeps_and_retries scripted ⟨.empty, true⟩ .empty (.ofList ["thinggroup/a"])
    [joined] failing
  obtain ⟨-, -, hkept, hretried⟩ := hall
  constructor
  · obtain ⟨d, accepted, -, honly, hwinners, -⟩ := hkept .empty hfailed
    obtain ⟨w, hw⟩ : ∃ w, p.store.winner? ⟨"thinggroup/a"⟩ = some w :=
      Option.isSome_iff_exists.1 (by decide +kernel)
    obtain ⟨w', hw', hsame⟩ := hwinners _ w hw
    have hne : (⟨"thinggroup/a"⟩ : Scope) ≠ accepted := by
      rw [hfailing accepted honly.force]
      decide
    exact ⟨w, hw, (hsame hne) ▸ hw'⟩
  · have hretry := hretried .empty ⟨"LOCAL_DEPLOYMENT"⟩ ⟨"thinggroup/a"⟩ [] holding
      ⟨"LOCAL_DEPLOYMENT"⟩ .empty
    simp only [run_nil] at hretry
    exact hretry hfailed hdue (List.forall_mem_nil _) hforce hheld NameSet.not_mem_empty (by decide)

end Rollout.Pipeline
