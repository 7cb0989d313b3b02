import Mathlib.Tactic.Tauto
import Rollout.Proofs.Overlay
import Rollout.Proofs.Runs

/-!
# The order of deliveries does not matter

On a device whose groups stay the same and that can always save, a run that finds a place for every
acceptance is a fold over the delivered documents: each one that passes the checks and is later than
the winner of its scope takes its place.  So each scope ends with the latest of its documents, in
whatever order and however often they are delivered, and whatever the component manager makes of
them.
-/

namespace Rollout.Pipeline

variable {σ : Type}

/-! ### Deliveries as a fold -/

/-- Surroundings in which the groups stay the same and every state can be saved. -/
structure Steady (env : Surroundings (StateM σ)) (groups : NameSet) : Prop where
  groups : ∀ w, (env.groups.run w).1 = groups
  save : ∀ state w, ((env.save state).run w).1 = .ok ()

/-- Whether a document passes the checks before it competes. -/
def passes (policy : Policy) (groups : NameSet) (d : Document) : Bool :=
  (Capability.check policy.capabilities d.capabilities).isOk && (Hierarchy.place groups d).isOk

instance (s : Store) (scope : Scope) (t : Int64) : Decidable (s.Later scope t) :=
  decidable_of_iff ((s.winner? scope).all fun w => w.createdAt < t) (by
    cases h : s.winner? scope <;> simp [Store.Later, h])

/-- What the delivery of a document makes of a pipeline. -/
def deliver (groups : NameSet) (p : Pipeline) (d : Document) : Pipeline :=
  if passes p.policy groups d ∧ p.store.Later (Hierarchy.scopeOf d) d.createdAt then
    Verdict.committed p (Hierarchy.scopeOf d) d
  else p

section Deliver

variable {groups : NameSet} {p : Pipeline} {d : Document}

theorem deliver_of_not_passes (h : passes p.policy groups d = false) : deliver groups p d = p := by
  unfold deliver
  rw [h]
  exact if_neg fun hboth => Bool.false_ne_true hboth.1

theorem deliver_of_not_later (h : ¬p.store.Later (Hierarchy.scopeOf d) d.createdAt) :
    deliver groups p d = p := if_neg fun hboth => h hboth.2

theorem deliver_of_later (hpasses : passes p.policy groups d = true)
    (hlater : p.store.Later (Hierarchy.scopeOf d) d.createdAt) :
    deliver groups p d = Verdict.committed p (Hierarchy.scopeOf d) d := if_pos ⟨hpasses, hlater⟩

@[simp] theorem policy_deliver : (deliver groups p d).policy = p.policy := by
  unfold deliver
  split <;> rfl

@[simp] theorem observed_deliver : (deliver groups p d).observed = p.observed := by
  unfold deliver
  split <;> rfl

end Deliver

def delivered (turns : List (Turn σ)) : List Document :=
  turns.filterMap fun t => t.deployment.document.toOption

theorem place_congr {d : Document} (h : d.onBehalfOf = none) (groups groups' : NameSet) :
    Hierarchy.place groups d = Hierarchy.place groups' d := by
  unfold Hierarchy.place
  rw [h]

section Steady

variable {env : Surroundings (StateM σ)} {groups : NameSet} (hsteady : Steady env groups)

include hsteady

theorem Steady.groups_eq {groups' : NameSet} (h : Event.Genuine env (.groups groups')) :
    groups' = groups := by
  obtain ⟨w, rfl⟩ := h
  exact hsteady.groups w

theorem Steady.not_unsaved {state : Snapshot} {e : Snapshot.SaveError}
    (h : Event.Genuine env (.save state (.error e))) : False := by
  obtain ⟨w, hw⟩ := h
  rw [hsteady.save] at hw
  cases hw

theorem Steady.place_eq {d : Document} {groups' : NameSet}
    (h : ∀ e ∈ Verdict.lookUp d groups', Event.Genuine env e) :
    Hierarchy.place groups' d = Hierarchy.place groups d := by
  cases ho : d.onBehalfOf with
  | none => exact place_congr ho groups' groups
  | some scope =>
    have hmem : Event.groups groups' ∈ Verdict.lookUp d groups' := by
      simp [Verdict.lookUp, ho]
    rw [hsteady.groups_eq (h _ hmem)]

theorem Steady.passes_of_placed {p : Pipeline} {deployment : Deployment} {d : Document}
    {groups' : NameSet} {place : Hierarchy.Place}
    (hplaced : Verdict.Placed p deployment d groups' place)
    (h : ∀ e ∈ Verdict.lookUp d groups', Event.Genuine env e) :
    passes p.policy groups d = true := by
  unfold passes
  rw [hplaced.capable, ← hsteady.place_eq h, hplaced.place]
  rfl

theorem Steady.pass_next {p : Pipeline} (hobserved : p.observed = groups) {accepted : Scope}
    {pass : Pass} (h : ∀ e ∈ pass.events accepted p, Event.Genuine env e) :
    pass.next accepted p = p := by
  cases pass with
  | off => rfl
  | unsaved groups' e =>
    exact absurd (h _ (List.mem_cons_of_mem _ (List.mem_singleton_self _))) hsteady.not_unsaved
  | done groups' =>
    have hgroups : groups' = p.observed :=
      (hsteady.groups_eq (h _ List.mem_cons_self)).trans hobserved.symm
    have hkeeps : ∀ scope, Pass.keeps accepted p groups' scope = true := by
      intro scope
      have hnone : (p.observed.diff groups').contains scope.name = false := by
        rw [← Bool.not_eq_true, NameSet.contains_eq_true, NameSet.mem_diff, hgroups]
        exact fun hboth => hboth.2 hboth.1
      simp only [Pass.keeps, stays, hnone, Bool.not_false, Bool.or_true]
    have hnothing : p.store.dropped (Pass.keeps accepted p groups') = [] :=
      Store.dropped_eq_nil.2 fun scope _ _ => hkeeps scope
    simp only [Pass.next]
    rw [Store.keepOnly_eq_self hnothing, hgroups]

theorem Steady.next_eq {p : Pipeline} (hobserved : p.observed = groups) {t : Turn σ}
    (hroom : (t.outcome env p).isExhausted = false) :
    t.next env p =
      match t.deployment.document with
      | .ok d => deliver groups p d
      | .error _ => p := by
  obtain ⟨v, hends⟩ := t.ends env p
  have hgenuine : ∀ e ∈ v.events p, Event.Genuine env e := by
    rw [← hends.events]
    exact (journal_history env t.deployment p t.world).genuine
  have hfits := hends.fits
  rw [hends.isExhausted_eq] at hroom
  rw [hends.next]
  cases v with
  | malformed failure =>
    rw [show t.deployment.document = .error failure from hfits]
    rfl
  | incapable d failure =>
    rw [hfits.1]
    have hnot : passes p.policy groups d = false := by
      unfold passes
      rw [hfits.2]
      rfl
    exact (deliver_of_not_passes hnot).symm
  | misplaced d groups' failure =>
    rw [hfits.1]
    have hnot : passes p.policy groups d = false := by
      unfold passes
      rw [← hsteady.place_eq hgenuine, hfits.2.2, hfits.2.1]
      rfl
    exact (deliver_of_not_passes hnot).symm
  | stale d groups' place current =>
    obtain ⟨hplaced, hcurrent, hle⟩ := hfits
    rw [hplaced.document]
    rw [Hierarchy.scope_of_place hplaced.place] at hcurrent
    have hnot : ¬p.store.Later (Hierarchy.scopeOf d) d.createdAt := fun hlater =>
      absurd (hlater current hcurrent) (Int64.not_lt.2 hle)
    exact (deliver_of_not_later hnot).symm
  | exhausted d groups' place => cases hroom
  | unsaved d groups' place e =>
    have hsaved := List.mem_singleton_self
      (Event.save (Verdict.committed p place.scope d).store.toSnapshot (.error e))
    have hmem := List.mem_append_right (Verdict.lookUp d groups') hsaved
    exact absurd (hgenuine _ hmem) hsteady.not_unsaved
  | accepted d groups' place pass answer =>
    obtain ⟨hplaced, hlater, -, -⟩ := hfits
    simp only [Verdict.events, List.forall_mem_append, List.forall_mem_cons] at hgenuine
    obtain ⟨hlookUp, -, hpass, -⟩ := hgenuine
    have hscope := Hierarchy.scope_of_place hplaced.place
    rw [hscope] at hlater hpass
    rw [hplaced.document]
    dsimp only [Verdict.next]
    rw [hscope, deliver_of_later (hsteady.passes_of_placed hplaced hlookUp) hlater]
    exact hsteady.pass_next (p := Verdict.committed p (Hierarchy.scopeOf d) d) hobserved hpass

theorem Steady.run_eq {p : Pipeline} (hobserved : p.observed = groups) {turns : List (Turn σ)}
    (hroom : HasRoom env p turns) :
    run env p turns = (delivered turns).foldl (deliver groups) p := by
  induction turns generalizing p with
  | nil => rfl
  | cons t turns ih =>
    obtain ⟨hfirst, hrest⟩ := hroom.cons
    have hnext := hsteady.next_eq hobserved hfirst
    rw [run_cons]
    cases hd : t.deployment.document with
    | error failure =>
      rw [hd] at hnext
      have hnothing : delivered (t :: turns) = delivered turns := by
        simp only [delivered, List.filterMap_cons, hd, Except.toOption]
      rw [hnext] at hrest ⊢
      rw [hnothing]
      exact ih hobserved hrest
    | ok d =>
      rw [hd] at hnext
      have hmore : delivered (t :: turns) = d :: delivered turns := by
        simp only [delivered, List.filterMap_cons, hd, Except.toOption]
      rw [hnext] at hrest ⊢
      rw [hmore, List.foldl_cons]
      exact ih (observed_deliver.trans hobserved) hrest

end Steady

/-! ### Who wins -/

/-- Whether a winner is what the delivered documents make of the first winner of a scope: the latest
of those documents that pass and are later than it, or it itself if there is none. -/
def Leads (policy : Policy) (groups : NameSet) (store : Store) (docs : List Document)
    (scope : Scope) (current : Option Winner) : Prop :=
  (∃ d ∈ docs, passes policy groups d = true ∧ Hierarchy.scopeOf d = scope ∧
      store.Later scope d.createdAt ∧
      (∀ d' ∈ docs, passes policy groups d' = true → Hierarchy.scopeOf d' = scope →
        d'.createdAt ≤ d.createdAt) ∧
      ∃ w, current = some w ∧ w.unnumbered = .ofDocument scope d) ∨
    ((∀ d ∈ docs, passes policy groups d = true → Hierarchy.scopeOf d = scope →
        ¬store.Later scope d.createdAt) ∧
      current = store.winner? scope)

theorem createdAt_of_unnumbered {w : Winner} {scope : Scope} {d : Document}
    (h : w.unnumbered = .ofDocument scope d) : w.createdAt = d.createdAt := by
  have htime : w.unnumbered.createdAt = (Winner.ofDocument scope d).createdAt := by rw [h]
  exact htime

section Leads

variable {policy : Policy} {groups : NameSet} {store : Store} {docs : List Document} {scope : Scope}
  {current : Option Winner} {d : Document}

theorem Leads.skip (h : Leads policy groups store docs scope current)
    (hbeaten : passes policy groups d = true → Hierarchy.scopeOf d = scope →
      ∃ w, current = some w ∧ d.createdAt ≤ w.createdAt) :
    Leads policy groups store (docs ++ [d]) scope current := by
  rcases h with ⟨best, hmem, hpass, hscope, hlater, hmax, w, hw, hsame⟩ | ⟨hnone, hw⟩
  · refine .inl ⟨best, List.mem_append_left _ hmem, hpass, hscope, hlater, ?_, w, hw, hsame⟩
    intro d' hd' hpass' hscope'
    rcases List.mem_append.1 hd' with hold | hnew
    · exact hmax d' hold hpass' hscope'
    · cases List.mem_singleton.1 hnew
      obtain ⟨w', hw', hle⟩ := hbeaten hpass' hscope'
      cases hw.symm.trans hw'
      rw [createdAt_of_unnumbered hsame] at hle
      exact hle
  · refine .inr ⟨?_, hw⟩
    intro d' hd' hpass' hscope'
    rcases List.mem_append.1 hd' with hold | hnew
    · exact hnone d' hold hpass' hscope'
    · cases List.mem_singleton.1 hnew
      obtain ⟨w', hw', hle⟩ := hbeaten hpass' hscope'
      exact fun hlater => absurd (hlater w' (hw.symm.trans hw')) (Int64.not_lt.2 hle)

theorem Leads.take (h : Leads policy groups store docs scope current)
    (hpass : passes policy groups d = true) (hscope : Hierarchy.scopeOf d = scope)
    (hbeats : ∀ w, current = some w → w.createdAt < d.createdAt) {new : Winner}
    (hnew : new.unnumbered = .ofDocument scope d) :
    Leads policy groups store (docs ++ [d]) scope (some new) := by
  have hmem : d ∈ docs ++ [d] := List.mem_append_right _ (List.mem_singleton_self d)
  rcases h with ⟨best, -, -, -, hlater, hmax, w, hw, hsame⟩ | ⟨hnone, hw⟩
  · have hlt : best.createdAt < d.createdAt := by
      rw [← createdAt_of_unnumbered hsame]
      exact hbeats w hw
    refine .inl ⟨d, hmem, hpass, hscope, ?_, ?_, new, rfl, hnew⟩
    · exact fun first hfirst => Int64.lt_trans (hlater first hfirst) hlt
    · intro d' hd' hpass' hscope'
      rcases List.mem_append.1 hd' with hold | hlast
      · exact Int64.le_of_lt (Int64.lt_of_le_of_lt (hmax d' hold hpass' hscope') hlt)
      · cases List.mem_singleton.1 hlast
        exact Int64.le_refl _
  · have hlater : store.Later scope d.createdAt := fun first hfirst =>
      hbeats first (hw.trans hfirst)
    refine .inl ⟨d, hmem, hpass, hscope, hlater, ?_, new, rfl, hnew⟩
    intro d' hd' hpass' hscope'
    rcases List.mem_append.1 hd' with hold | hlast
    · have hnot := hnone d' hold hpass' hscope'
      simp only [Store.Later, not_forall] at hnot
      obtain ⟨first, hfirst, hge⟩ := hnot
      exact Int64.le_of_lt (Int64.lt_of_le_of_lt (Int64.not_lt.1 hge) (hlater first hfirst))
    · cases List.mem_singleton.1 hlast
      exact Int64.le_refl _

theorem Leads.deliver {p : Pipeline} (hpolicy : p.policy = policy)
    (h : Leads policy groups store docs scope (p.store.winner? scope)) (d : Document) :
    Leads policy groups store (docs ++ [d]) scope
      ((Pipeline.deliver groups p d).store.winner? scope) := by
  cases hpasses : passes policy groups d with
  | false =>
    rw [deliver_of_not_passes (by rw [hpolicy]; exact hpasses)]
    exact h.skip fun hpass => absurd (hpasses.symm.trans hpass) Bool.false_ne_true
  | true =>
    by_cases hlater : p.store.Later (Hierarchy.scopeOf d) d.createdAt
    · rw [deliver_of_later (by rw [hpolicy]; exact hpasses) hlater]
      by_cases hscope : scope = Hierarchy.scopeOf d
      · subst hscope
        have hnew := Store.winner?_accept_self p.store (Hierarchy.scopeOf d)
          (.ofDocument (Hierarchy.scopeOf d) d)
        simp only [Verdict.committed]
        rw [hnew]
        exact h.take hpasses rfl hlater rfl
      · rw [Verdict.winner?_committed_of_ne p d hscope]
        exact h.skip fun _ heq => absurd heq.symm hscope
    · rw [deliver_of_not_later hlater]
      refine h.skip fun _ hscope => ?_
      subst hscope
      simp only [Store.Later, not_forall] at hlater
      obtain ⟨w, hw, hge⟩ := hlater
      exact ⟨w, hw, Int64.not_lt.1 hge⟩

theorem leads_foldl {p : Pipeline} (hpolicy : p.policy = policy)
    (h : Leads policy groups store docs scope (p.store.winner? scope)) (more : List Document) :
    Leads policy groups store (docs ++ more) scope
      ((more.foldl (Pipeline.deliver groups) p).store.winner? scope) := by
  -- `docs` grows with each delivery; the winner is always what it makes of the first one
  induction more generalizing p docs with
  | nil =>
    rw [List.append_nil]
    exact h
  | cons d more ih =>
    rw [List.append_cons, List.foldl_cons]
    exact ih (policy_deliver.trans hpolicy) (h.deliver hpolicy d)

end Leads

/-- Each scope ends with the latest of the documents that were delivered. -/
theorem Steady.leads {env : Surroundings (StateM σ)} {groups : NameSet}
    (hsteady : Steady env groups) {policy : Policy} {store : Store} {turns : List (Turn σ)}
    (hroom : HasRoom env (start policy store groups) turns) (scope : Scope) :
    Leads policy groups store (delivered turns) scope
      ((run env (start policy store groups) turns).store.winner? scope) := by
  have hfirst : Leads policy groups store [] scope
      ((start policy store groups).store.winner? scope) :=
    .inr ⟨fun _ hmem => absurd hmem List.not_mem_nil, rfl⟩
  rw [hsteady.run_eq rfl hroom]
  exact leads_foldl (p := start policy store groups) rfl hfirst (delivered turns)

/-! ### Two runs -/

/-- Whether different documents that pass and compete for one scope were made at different times. -/
def Distinguished (policy : Policy) (groups : NameSet) (docs : List Document) : Prop :=
  ∀ d ∈ docs, ∀ d' ∈ docs, passes policy groups d = true → passes policy groups d' = true →
    Hierarchy.scopeOf d = Hierarchy.scopeOf d' → d.createdAt = d'.createdAt → d = d'

theorem leads_unique {policy : Policy} {groups : NameSet} {store : Store}
    {docs docs' : List Document} {scope : Scope} {current current' : Option Winner}
    (hdocs : ∀ d, d ∈ docs ↔ d ∈ docs')
    (htimes : Distinguished policy groups docs)
    (h : Leads policy groups store docs scope current)
    (h' : Leads policy groups store docs' scope current') :
    current.map Winner.unnumbered = current'.map Winner.unnumbered := by
  rcases h with ⟨d, hmem, hpass, hscope, hlater, hmax, w, hw, hsame⟩ | ⟨hnone, hw⟩
  · rcases h' with ⟨d', hmem', hpass', hscope', hlater', hmax', w', hw', hsame'⟩ | ⟨hnone', -⟩
    · have hle := hmax d' ((hdocs d').2 hmem') hpass' hscope'
      have hge := hmax' d ((hdocs d).1 hmem) hpass hscope
      have heq : d = d' := htimes d hmem d' ((hdocs d').2 hmem') hpass hpass'
        (hscope.trans hscope'.symm) (Int64.le_antisymm hge hle)
      rw [hw, hw', Option.map_some, Option.map_some, hsame, hsame', heq]
    · exact absurd hlater (hnone' d ((hdocs d).1 hmem) hpass hscope)
  · rcases h' with ⟨d', hmem', hpass', hscope', hlater', -⟩ | ⟨-, hw'⟩
    · exact absurd hlater' (hnone d' ((hdocs d').2 hmem') hpass' hscope')
    · rw [hw, hw']

/-- Whether the winners of different scopes name different components. -/
def SharesNothing (s : Store) : Prop :=
  ∀ scope scope' w w', s.winner? scope = some w → s.winner? scope' = some w' → scope ≠ scope' →
    ∀ name, w.components.find? name = none ∨ w'.components.find? name = none

theorem mem_inOrder_store {s : Store} {w : Winner} :
    w ∈ s.inOrder ↔ ∃ scope, s.winner? scope = some w := by
  unfold Store.inOrder
  rw [EffectiveSet.mem_inOrder, NameMap.mem_values]
  constructor
  · rintro ⟨name, hname⟩
    exact ⟨⟨name⟩, hname⟩
  · rintro ⟨scope, hscope⟩
    exact ⟨scope.name, hscope⟩

theorem within_of_same_winners {s s' : Store}
    (h : ∀ scope,
      (s.winner? scope).map Winner.unnumbered = (s'.winner? scope).map Winner.unnumbered) :
    EffectiveSet.Within s.inOrder s'.inOrder := by
  intro w hw
  obtain ⟨scope, hscope⟩ := mem_inOrder_store.1 hw
  have hboth := h scope
  rw [hscope, Option.map_some] at hboth
  obtain ⟨w', hw', hsame⟩ := Option.map_eq_some_iff.1 hboth.symm
  exact ⟨w', mem_inOrder_store.2 ⟨scope, hw'⟩, hsame⟩

theorem oneForEach_of_sharesNothing {s : Store} (h : SharesNothing s) :
    EffectiveSet.OneForEach s.inOrder := by
  intro w hw w' hw' name c c' hc hc'
  obtain ⟨scope, hscope⟩ := mem_inOrder_store.1 hw
  obtain ⟨scope', hscope'⟩ := mem_inOrder_store.1 hw'
  by_cases heq : scope = scope'
  · subst heq
    cases hscope.symm.trans hscope'
    rfl
  · rcases h scope scope' w w' hscope hscope' heq name with hnone | hnone
    · rw [hnone] at hc
      cases hc
    · rw [hnone] at hc'
      cases hc'

theorem effective_eq {s s' : Store}
    (h : ∀ scope,
      (s.winner? scope).map Winner.unnumbered = (s'.winner? scope).map Winner.unnumbered)
    (hnothing : SharesNothing s) : s.effective = s'.effective :=
  EffectiveSet.ofWinners_eq_of_within (within_of_same_winners h)
    (within_of_same_winners fun scope => (h scope).symm) (oneForEach_of_sharesNothing hnothing)

/-- Two runs that deliver the same documents, in whatever order and however often, end with the same
winners, up to their places among the acceptances: the latest document of each scope or the first
winner.  If the winners of different scopes share no component, the effective components agree. -/
theorem deliveries_converge {σ' : Type} (env : Surroundings (StateM σ))
    (env' : Surroundings (StateM σ')) (groups : NameSet) (hsteady : Steady env groups)
    (hsteady' : Steady env' groups) (policy : Policy) (store : Store) (turns : List (Turn σ))
    (turns' : List (Turn σ')) (hroom : HasRoom env (start policy store groups) turns)
    (hroom' : HasRoom env' (start policy store groups) turns')
    (hdocs : ∀ d, d ∈ delivered turns ↔ d ∈ delivered turns')
    (htimes : Distinguished policy groups (delivered turns)) :
    let final := (run env (start policy store groups) turns).store
    let final' := (run env' (start policy store groups) turns').store
    (∀ scope, (final.winner? scope).map Winner.unnumbered =
        (final'.winner? scope).map Winner.unnumbered ∧
      Leads policy groups store (delivered turns) scope (final.winner? scope)) ∧
    (SharesNothing final → final.effective = final'.effective) := by
  intro final final'
  have hleads := hsteady.leads hroom
  have hleads' := hsteady'.leads hroom'
  have hsame : ∀ scope, (final.winner? scope).map Winner.unnumbered =
      (final'.winner? scope).map Winner.unnumbered := fun scope =>
    leads_unique hdocs htimes (hleads scope) (hleads' scope)
  exact ⟨fun scope => ⟨hsame scope, hleads scope⟩, effective_eq hsame⟩

/-- Two documents for one group that come in either order, once or twice. -/
theorem deliveries_converge_two :
    let env := quiet (.ofList ["thinggroup/a"])
    let p := start ⟨.empty, true⟩ .empty (.ofList ["thinggroup/a"])
    let older : Turn Unit := ⟨⟨.jobs, .document (bare "d1" "thinggroup/a" 1)⟩, ()⟩
    let newer : Turn Unit := ⟨⟨.shadow, .document (bare "d2" "thinggroup/a" 2)⟩, ()⟩
    let final := (run env p [newer, older]).store
    let final' := (run env p [older, newer, older]).store
    (final.winner? ⟨"thinggroup/a"⟩).map Winner.unnumbered =
        (final'.winner? ⟨"thinggroup/a"⟩).map Winner.unnumbered ∧
      final.winner? ⟨"thinggroup/a"⟩ ≠ final'.winner? ⟨"thinggroup/a"⟩ := by
  intro env p older newer final final'
  have hsteady : Steady env (.ofList ["thinggroup/a"]) := ⟨fun _ => rfl, fun _ _ => rfl⟩
  have hdocs : ∀ d, d ∈ delivered [newer, older] ↔ d ∈ delivered [older, newer, older] := by
    intro d
    have hfirst : delivered [newer, older] =
        [bare "d2" "thinggroup/a" 2, bare "d1" "thinggroup/a" 1] := rfl
    have hsecond : delivered [older, newer, older] =
        [bare "d1" "thinggroup/a" 1, bare "d2" "thinggroup/a" 2, bare "d1" "thinggroup/a" 1] := rfl
    rw [hfirst, hsecond]
    simp only [List.mem_cons, List.not_mem_nil, or_false]
    tauto
  have htimes : Distinguished ⟨.empty, true⟩ (.ofList ["thinggroup/a"])
      (delivered [newer, older]) := by
    unfold Distinguished
    decide +kernel
  have hall := deliveries_converge env env (.ofList ["thinggroup/a"]) hsteady hsteady ⟨.empty, true⟩
    .empty [newer, older] [older, newer, older] (by decide +kernel) (by decide +kernel) hdocs htimes
  exact ⟨(hall.1 ⟨"thinggroup/a"⟩).1, by decide +kernel⟩

end Rollout.Pipeline
