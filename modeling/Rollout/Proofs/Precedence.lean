import Rollout.Proofs.Runs

/-!
# Winners only move forward

As long as pruning does not drop the winner of a scope, every change of it is to a later document,
in a turn whose record tells so, and a document that was the winner once is refused ever after.
Whether pruning drops a winner is read off the journal: the winner is in the first state that a turn
saves and no longer in the second.
-/

namespace Rollout.Pipeline

/-! ### Dropping, as the journal shows it -/

def savedStates (events : List Event) : List Snapshot :=
  events.filterMap fun
    | .save state (.ok ()) => some state
    | _ => none

/-- Whether the winner of a scope is in a saved state and no longer in a later one. -/
def Drops (scope : Scope) (events : List Event) : Prop :=
  ∃ before after : Snapshot, [before, after].Sublist (savedStates events) ∧
    (∃ w, before.winners.find? scope.name = some w) ∧ after.winners.find? scope.name = none

variable {σ : Type} (env : Surroundings (StateM σ))

/-- Whether no turn of a run drops the winner of a scope. -/
def Undisturbed (p : Pipeline) (scope : Scope) (turns : List (Turn σ)) : Prop :=
  ∀ before t after, turns = before ++ t :: after → ¬Drops scope (t.events env (run env p before))

section Undisturbed

variable {env} {p : Pipeline} {scope : Scope} {before after : List (Turn σ)}

theorem Undisturbed.left (h : Undisturbed env p scope (before ++ after)) :
    Undisturbed env p scope before := by
  intro b t a hsplit
  refine h b t (a ++ after) ?_
  rw [hsplit, List.append_assoc, List.cons_append]

theorem Undisturbed.right (h : Undisturbed env p scope (before ++ after)) :
    Undisturbed env (run env p before) scope after := by
  intro b t a hsplit
  rw [← run_append]
  refine h (before ++ b) t a ?_
  rw [hsplit, List.append_assoc]

theorem Undisturbed.head {t : Turn σ} (h : Undisturbed env p scope (t :: after)) :
    ¬Drops scope (t.events env p) := h [] t after rfl

theorem Undisturbed.tail {t : Turn σ} (h : Undisturbed env p scope (t :: after)) :
    Undisturbed env (t.next env p) scope after :=
  @Undisturbed.right σ env p scope [t] after h

theorem undisturbed_nil : Undisturbed env p scope [] := by
  intro b t a hsplit
  cases b <;> cases hsplit

theorem Undisturbed.cons {t : Turn σ} (hhead : ¬Drops scope (t.events env p))
    (htail : Undisturbed env (t.next env p) scope after) :
    Undisturbed env p scope (t :: after) := by
  intro b t' a hsplit
  cases b with
  | nil =>
    cases hsplit
    exact hhead
  | cons u b =>
    cases hsplit
    exact htail b t' a rfl

end Undisturbed

theorem not_drops_of_length {scope : Scope} {events : List Event}
    (h : (savedStates events).length ≤ 1) : ¬Drops scope events := by
  rintro ⟨before, after, hsub, -, -⟩
  have hlength := hsub.length_le
  simp only [List.length_cons, List.length_nil] at hlength
  omega

/-! ### One turn -/

theorem drops_of_pass {p : Pipeline} {d : Document} {groups : NameSet} {place : Hierarchy.Place}
    {scope : Scope} {w : Winner}
    (hw : (Verdict.committed p place.scope d).store.winner? scope = some w)
    (hdropped : Pass.keeps place.scope (Verdict.committed p place.scope d) groups scope = false)
    (asked : NameSet) (answer : Except ApplyFailure Unit) :
    Drops scope ((Verdict.accepted d asked place (.done groups) answer).events p) := by
  let p' := Verdict.committed p place.scope d
  let keep := Pass.keeps place.scope p' groups
  have hkeep : ¬keep scope = true := Bool.eq_false_iff.1 hdropped
  have hsome : p'.store.dropped keep ≠ [] := by
    intro hnone
    exact hkeep (Store.dropped_eq_nil.1 hnone scope w hw)
  refine ⟨p'.store.toSnapshot, (p'.store.keepOnly keep).toSnapshot, ?_, ⟨w, hw⟩, ?_⟩
  · have hsaved : savedStates ((Verdict.accepted d asked place (.done groups) answer).events p) =
        [p'.store.toSnapshot, (p'.store.keepOnly keep).toSnapshot] := by
      refine (Verdict.view_lookUp savedStates (fun _ _ => rfl) d asked _).trans ?_
      simp only [Pass.events]
      rw [if_neg hsome]
      rfl
    exact hsaved ▸ List.Sublist.refl _
  · have hlook := Store.winner?_keepOnly p'.store keep scope
    rw [if_neg hkeep] at hlook
    exact hlook

theorem winner?_next {p : Pipeline} {t : Turn σ} {scope : Scope} {v : Verdict}
    (hends : t.Ends env p v)
    (hkept : p.policy.prunes = true → ¬Drops scope (t.events env p)) :
    (t.next env p).store.winner? scope = p.store.winner? scope ∨
      ∃ d groups place pass answer, v = .accepted d groups place pass answer ∧
        place.scope = scope ∧ p.store.Later scope d.createdAt ∧
        (t.next env p).store.winner? scope =
          some (p.store.seat scope (.ofDocument scope d)) := by
  rw [hends.next]
  rcases Verdict.refused_or_accepted hends.fits with ⟨-, hsame⟩ | haccepted
  · exact .inl (by rw [hsame])
  · obtain ⟨d, groups, place, pass, answer, rfl⟩ := haccepted
    obtain ⟨-, hlater, -, hpass⟩ := hends.fits
    by_cases hscope : scope = place.scope
    · subst hscope
      exact .inr ⟨d, groups, place, pass, answer, rfl, rfl, hlater,
        Verdict.winner?_next_self p d groups place pass answer⟩
    · refine .inl ?_
      have hbefore := Verdict.winner?_committed_of_ne p d hscope
      rcases Pass.kept_or_dropped hpass scope with
        hkeeps | ⟨groups', w, rfl, hprunes, hw, hdropped, -⟩
      · exact hkeeps.trans hbefore
      · have hdrops := drops_of_pass hw hdropped groups answer
        rw [← hends.events] at hdrops
        exact absurd hdrops (hkept hprunes)

/-- Whether a turn brings a document into force in a scope, as its record tells. -/
def BringsIntoForce (p : Pipeline) (t : Turn σ) (scope : Scope) : Prop :=
  ∃ r, (t.outcome env p).result = .ok r ∧ InForce r ∧ r.scope = some scope

instance (p : Pipeline) (t : Turn σ) (scope : Scope) : Decidable (BringsIntoForce env p t scope) :=
  match h : (t.outcome env p).result with
  | .ok r => decidable_of_iff (InForce r ∧ r.scope = some scope) (by simp [BringsIntoForce, h])
  | .error _ => isFalse (by simp [BringsIntoForce, h])

/-- A turn leaves the winner of a scope or brings a later one into force. -/
def MovesForward (p : Pipeline) (t : Turn σ) (scope : Scope) : Prop :=
  (t.next env p).store.winner? scope = p.store.winner? scope ∨
    BringsIntoForce env p t scope ∧ ∃ new, (t.next env p).store.winner? scope = some new ∧
      ∀ old, p.store.winner? scope = some old → old.createdAt < new.createdAt

variable {env}

theorem movesForward {p : Pipeline} {t : Turn σ} {scope : Scope}
    (hkept : p.policy.prunes = true → ¬Drops scope (t.events env p)) :
    MovesForward env p t scope := by
  obtain ⟨v, hends⟩ := t.ends env p
  rcases winner?_next env hends hkept with hsame | haccepted
  · exact .inl hsame
  · obtain ⟨d, groups, place, pass, answer, rfl, rfl, hlater, hnew⟩ := haccepted
    obtain ⟨history, -, hrecord⟩ := hends.record
    refine .inr
      ⟨⟨_, hrecord, Verdict.inForce_accepted d groups place pass answer, rfl⟩, _, hnew, ?_⟩
    exact hlater

theorem winner?_of_bringsIntoForce {p : Pipeline} {t : Turn σ} {scope : Scope} {d : Document}
    (hd : t.deployment.document = .ok d) (h : BringsIntoForce env p t scope) :
    scope = Hierarchy.scopeOf d ∧
      ∃ new, (t.next env p).store.winner? scope = some new ∧ new.createdAt = d.createdAt := by
  obtain ⟨v, hends⟩ := t.ends env p
  obtain ⟨r, hr, hforce, hscope⟩ := h
  obtain ⟨-, -, hrecord⟩ := hends.record_eq hr
  rw [hrecord] at hforce hscope
  rcases Verdict.refused_or_accepted hends.fits with ⟨hnot, -⟩ | haccepted
  · exact absurd hforce (hnot r.history)
  · obtain ⟨d', groups, place, pass, answer, rfl⟩ := haccepted
    obtain ⟨hplaced, -, -⟩ := hends.fits
    cases hplaced.document.symm.trans hd
    cases hscope
    refine ⟨Hierarchy.scope_of_place hplaced.place,
      p.store.seat place.scope (.ofDocument place.scope d), ?_, rfl⟩
    rw [hends.next]
    exact Verdict.winner?_next_self p d groups place pass answer

theorem rejected_of_not_later {p : Pipeline} {t : Turn σ} {d : Document} {current : Winner}
    (hd : t.deployment.document = .ok d)
    (hcurrent : p.store.winner? (Hierarchy.scopeOf d) = some current)
    (hle : d.createdAt ≤ current.createdAt) :
    (∃ r, (t.outcome env p).result = .ok r ∧ r.stage = .rejected) ∧ t.next env p = p := by
  obtain ⟨v, hends⟩ := t.ends env p
  rcases Verdict.rejected_or_later hends.fits with ⟨hstage, hsame⟩ | hcompeted
  · obtain ⟨history, -, hrecord⟩ := hends.recorded (Verdict.stop?_of_rejected hstage)
    exact ⟨⟨_, hrecord, hstage⟩, hends.next.trans hsame⟩
  · obtain ⟨d', groups, place, hplaced, hlater, -⟩ := hcompeted
    cases hplaced.document.symm.trans hd
    rw [← Hierarchy.scope_of_place hplaced.place] at hcurrent
    exact absurd (hlater current hcurrent) (Int64.not_lt.2 hle)

/-! ### Runs -/

theorem winner?_run {p : Pipeline} {scope : Scope} {turns : List (Turn σ)} {w : Winner}
    (hkept : p.policy.prunes = true → Undisturbed env p scope turns)
    (hw : p.store.winner? scope = some w) :
    ∃ w', (run env p turns).store.winner? scope = some w' ∧
      (w' = w ∨ w.createdAt < w'.createdAt) := by
  -- the winner that the rest of the run starts from is the one that the first turn leaves
  induction turns generalizing p w with
  | nil => exact ⟨w, hw, .inl rfl⟩
  | cons t turns ih =>
    have hpolicy : (t.next env p).policy = p.policy := policy_run env p [t]
    have hrest : (t.next env p).policy.prunes = true →
        Undisturbed env (t.next env p) scope turns := by
      rw [hpolicy]
      exact fun hprunes => (hkept hprunes).tail
    rcases movesForward (fun hprunes => (hkept hprunes).head) with hsame | ⟨-, new, hnew, hlater⟩
    · exact ih hrest (hsame.trans hw)
    · obtain ⟨w', hw', hforward⟩ := ih hrest hnew
      refine ⟨w', hw', .inr ?_⟩
      rcases hforward with rfl | hlt
      · exact hlater w hw
      · exact Int64.lt_trans (hlater w hw) hlt

/-- As long as no turn drops the winner of a scope: it stays or gives way to a later one, it changes
only in turns that bring a document into force there, and a document that was brought into force is
rejected and changes nothing when it comes again. -/
theorem winners_move_forward (env : Surroundings (StateM σ)) (p : Pipeline) (scope : Scope)
    (turns : List (Turn σ)) (hkept : p.policy.prunes = true → Undisturbed env p scope turns) :
    (∀ before between after w, turns = before ++ between ++ after →
      (run env p before).store.winner? scope = some w →
      ∃ w', (run env p (before ++ between)).store.winner? scope = some w' ∧
        (w' = w ∨ w.createdAt < w'.createdAt)) ∧
    (∀ before t after, turns = before ++ t :: after → MovesForward env (run env p before) t scope) ∧
    (∀ before t between t' after d, turns = before ++ t :: between ++ t' :: after →
      t.deployment.document = .ok d → t'.deployment.document = .ok d →
      BringsIntoForce env (run env p before) t scope →
      (∃ r, (t'.outcome env (run env p (before ++ t :: between))).result = .ok r ∧
        r.stage = .rejected) ∧
      run env p (before ++ t :: between ++ [t']) = run env p (before ++ t :: between)) := by
  have hstretch : ∀ before between after, turns = before ++ between ++ after →
      (run env p before).policy.prunes = true →
        Undisturbed env (run env p before) scope between := by
    intro before between after hsplit hprunes
    rw [policy_run] at hprunes
    have hall := hkept hprunes
    rw [hsplit] at hall
    exact hall.left.right
  refine ⟨?_, ?_, ?_⟩
  · intro before between after w hsplit hw
    rw [run_append]
    exact winner?_run (hstretch before between after hsplit) hw
  · intro before t after hsplit
    refine movesForward fun hprunes => ?_
    exact (hstretch before (t :: after) [] (by rw [hsplit, List.append_nil]) hprunes).head
  · intro before t between t' after d hsplit hd hd' hforce
    obtain ⟨rfl, new, hnew, htime⟩ := winner?_of_bringsIntoForce hd hforce
    have hpolicy : (t.next env (run env p before)).policy = (run env p before).policy :=
      policy_run env (run env p before) [t]
    have hbetween : (t.next env (run env p before)).policy.prunes = true →
        Undisturbed env (t.next env (run env p before)) (Hierarchy.scopeOf d) between := by
      rw [hpolicy]
      exact fun hprunes => (hstretch before (t :: between) (t' :: after) hsplit hprunes).tail
    obtain ⟨current, hcurrent, hforward⟩ := winner?_run hbetween hnew
    have hle : d.createdAt ≤ current.createdAt := by
      rw [← htime]
      rcases hforward with rfl | hlt
      · exact Int64.le_refl _
      · exact Int64.le_of_lt hlt
    have hstate : run env p (before ++ t :: between) =
        run env (t.next env (run env p before)) between := by
      rw [run_append, run_cons]
    rw [← hstate] at hcurrent
    obtain ⟨hrejected, hsame⟩ := rejected_of_not_later hd' hcurrent hle
    refine ⟨hrejected, ?_⟩
    rw [run_append]
    exact hsame

/-- A document that comes twice on a device that drops the winners of groups it leaves. -/
theorem winners_move_forward_twice :
    let env := quiet (.ofList ["thinggroup/a"])
    let p := start ⟨.empty, true⟩ .empty (.ofList ["thinggroup/a"])
    let t : Turn Unit := ⟨⟨.direct, .document (bare "d" "thinggroup/a" 1)⟩, ()⟩
    Undisturbed env p ⟨"thinggroup/a"⟩ [t, t] ∧
      (∃ r, (t.outcome env (run env p [t])).result = .ok r ∧ r.stage = .rejected) ∧
      run env p [t, t] = run env p [t] := by
  intro env p t
  have hkept : Undisturbed env p ⟨"thinggroup/a"⟩ [t, t] :=
    .cons (not_drops_of_length (by decide))
      (.cons (not_drops_of_length (by decide)) undisturbed_nil)
  have hforce : BringsIntoForce env p t ⟨"thinggroup/a"⟩ := by decide
  have hall := winners_move_forward env p ⟨"thinggroup/a"⟩ [t, t] fun _ => hkept
  exact ⟨hkept, hall.2.2 [] t [] t [] (bare "d" "thinggroup/a" 1) rfl rfl rfl hforce⟩

end Rollout.Pipeline
