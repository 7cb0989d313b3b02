import Rollout.Proofs.Precedence

/-!
# Leaving groups

After an acceptance the groups of the device are read, and the winners of groups that it has left
are dropped.  A group counts as left if it was in the reading that the pipeline remembers: that of
the last pass that did not fail.  The reading of a pass that fails is not remembered, so a group
that only such passes read is kept when the device leaves it.
-/

namespace Rollout.Pipeline

/-! ### Readings, as the journal shows them -/

/-- The groups that a pass read, and whether the pass held. -/
structure Reading where
  groups : NameSet
  held : Bool
  deriving DecidableEq

/-- The reading of the pass that follows the acceptance of a document. -/
def readingAfterCommit : List Event → Option Reading
  | .groups groups :: .save _ (.error _) :: _ => some ⟨groups, false⟩
  | .groups groups :: _ => some ⟨groups, true⟩
  | _ => none

/-- The reading of the pass in the journal of a turn, if there is one: an acceptance is the first
state that is saved. -/
def reading? : List Event → Option Reading
  | [] => none
  | .save _ (.ok ()) :: rest => readingAfterCommit rest
  | _ :: rest => reading? rest

/-- The groups that a pass read that did not fail. -/
def heldReading? (events : List Event) : Option NameSet :=
  (reading? events).bind fun r => if r.held then some r.groups else none

def Pass.reading? : Pass → Option Reading
  | off => none
  | done groups => some ⟨groups, true⟩
  | unsaved groups _ => some ⟨groups, false⟩

theorem readingAfterCommit_events (accepted : Scope) (p : Pipeline) (pass : Pass) (plan : Plan)
    (answer : Except ApplyFailure Unit) :
    readingAfterCommit (pass.events accepted p ++ [.apply plan answer]) = pass.reading? := by
  cases pass with
  | off => rfl
  | unsaved groups e => rfl
  | done groups =>
    simp only [Pass.events]
    split <;> rfl

theorem reading?_accepted (p : Pipeline) (d : Document) (groups : NameSet)
    (place : Hierarchy.Place) (pass : Pass) (answer : Except ApplyFailure Unit) :
    reading? ((Verdict.accepted d groups place pass answer).events p) = pass.reading? := by
  have hview := Verdict.view_lookUp reading? (fun _ _ => rfl) d groups
  exact (hview _).trans (readingAfterCommit_events _ _ pass _ answer)

theorem reading?_refused (p : Pipeline) {v : Verdict} (h : ¬v.Accepted) :
    reading? (v.events p) = none := by
  cases v with
  | malformed failure => rfl
  | incapable d failure => rfl
  | misplaced d groups failure => exact Verdict.view_lookUp_only reading? (fun _ _ => rfl) d groups
  | stale d groups place current =>
    exact Verdict.view_lookUp_only reading? (fun _ _ => rfl) d groups
  | exhausted d groups place => exact Verdict.view_lookUp_only reading? (fun _ _ => rfl) d groups
  | unsaved d groups place e => exact Verdict.view_lookUp reading? (fun _ _ => rfl) d groups _
  | accepted d groups place pass answer => exact absurd ⟨d, groups, place, pass, answer, rfl⟩ h

variable {σ : Type} {env : Surroundings (StateM σ)}

/-- A turn that brings a document into force in a scope and then makes a pass. -/
structure Accepts (env : Surroundings (StateM σ)) (p : Pipeline) (t : Turn σ) (d : Document)
    (scope : Scope) (pass : Pass) : Prop where
  later : p.store.Later scope d.createdAt
  room : p.store.Room
  fits : pass.Fits scope (Verdict.committed p scope d)
  reading : reading? (t.events env p) = pass.reading?
  force : ∀ other, BringsIntoForce env p t other ↔ other = scope
  next : t.next env p = pass.next scope (Verdict.committed p scope d)

structure Refuses (env : Surroundings (StateM σ)) (p : Pipeline) (t : Turn σ) : Prop where
  reading : reading? (t.events env p) = none
  force : ∀ scope, ¬BringsIntoForce env p t scope
  next : t.next env p = p

theorem bringsIntoForce_iff {p : Pipeline} {t : Turn σ} {v : Verdict} {scope : Scope}
    (hends : t.Ends env p v) :
    BringsIntoForce env p t scope ↔ v.scope? = some scope ∧ v.Accepted := by
  constructor
  · rintro ⟨r, hr, hforce, hscope⟩
    obtain ⟨-, -, hrecord⟩ := hends.record_eq hr
    rw [hrecord] at hforce hscope
    rcases Verdict.refused_or_accepted hends.fits with ⟨hnot, -⟩ | haccepted
    · exact absurd hforce (hnot r.history)
    · exact ⟨hscope, haccepted⟩
  · rintro ⟨hscope, d, groups, place, pass, answer, rfl⟩
    obtain ⟨history, -, hrecord⟩ := hends.recorded rfl
    exact ⟨_, hrecord, Verdict.inForce_accepted d groups place pass answer, hscope⟩

theorem refuses_or_accepts (env : Surroundings (StateM σ)) (p : Pipeline) (t : Turn σ) :
    Refuses env p t ∨ ∃ d scope pass, Accepts env p t d scope pass := by
  obtain ⟨v, hends⟩ := t.ends env p
  rcases Verdict.refused_or_accepted hends.fits with ⟨hnot, hsame⟩ | haccepted
  · have hrefused : ¬v.Accepted := by
      rintro ⟨d, groups, place, pass, answer, rfl⟩
      exact hnot [] (Verdict.inForce_accepted d groups place pass answer)
    refine .inl ⟨?_, ?_, hends.next.trans hsame⟩
    · rw [hends.events]
      exact reading?_refused p hrefused
    · exact fun scope hforce => hrefused ((bringsIntoForce_iff hends).1 hforce).2
  · obtain ⟨d, groups, place, pass, answer, rfl⟩ := haccepted
    obtain ⟨-, hlater, hroom, hpass⟩ := hends.fits
    refine .inr ⟨d, place.scope, pass, hlater, hroom, hpass, ?_, ?_, hends.next⟩
    · rw [hends.events]
      exact reading?_accepted p d groups place pass answer
    · intro other
      rw [bringsIntoForce_iff hends]
      constructor
      · rintro ⟨hscope, -⟩
        cases hscope
        rfl
      · rintro rfl
        exact ⟨rfl, d, groups, place, pass, answer, rfl⟩

/-! ### What is remembered -/

def journals (env : Surroundings (StateM σ)) (p : Pipeline) : List (Turn σ) → List (List Event)
  | [] => []
  | t :: turns => t.events env p :: journals env (t.next env p) turns

/-- The reading of the last pass that did not fail, where the first groups are those that the
pipeline was built with. -/
def lastHeld (groups : NameSet) (journals : List (List Event)) : NameSet :=
  (journals.filterMap heldReading?).getLastD groups

theorem observed_next (env : Surroundings (StateM σ)) (p : Pipeline) (t : Turn σ) :
    (t.next env p).observed = (heldReading? (t.events env p)).getD p.observed := by
  rcases refuses_or_accepts env p t with hrefuses | ⟨d, scope, pass, haccepts⟩
  · rw [hrefuses.next, heldReading?, hrefuses.reading]
    rfl
  · rw [haccepts.next, heldReading?, haccepts.reading]
    cases pass <;> rfl

theorem observed_run (env : Surroundings (StateM σ)) (p : Pipeline) (turns : List (Turn σ)) :
    (run env p turns).observed = lastHeld p.observed (journals env p turns) := by
  induction turns generalizing p with
  | nil => rfl
  | cons t turns ih =>
    rw [run_cons, ih, observed_next]
    simp only [journals, lastHeld, List.filterMap_cons]
    cases heldReading? (t.events env p) with
    | none => rfl
    | some groups => rw [List.getLastD_cons]; rfl

/-! ### What is dropped -/

theorem stays_eq_false_iff {accepted scope : Scope} {observed groups : NameSet}
    (hexempt : scope.isExempt = false) (hne : scope ≠ accepted) :
    stays accepted (observed.diff groups) scope = false ↔
      scope.name ∈ observed ∧ scope.name ∉ groups := by
  simp only [stays, hne, hexempt, decide_false, Bool.false_or, Bool.not_eq_false',
    NameSet.contains_eq_true, NameSet.mem_diff]

theorem winner?_next_of_held {p : Pipeline} {t : Turn σ} {accepted scope : Scope}
    {groups : NameSet} (hforce : BringsIntoForce env p t accepted)
    (hheld : heldReading? (t.events env p) = some groups) (hexempt : scope.isExempt = false)
    (hne : scope ≠ accepted) (hleft : scope.name ∉ groups) :
    (t.next env p).store.winner? scope =
      if scope.name ∈ p.observed.names then none else p.store.winner? scope := by
  rcases refuses_or_accepts env p t with hrefuses | ⟨d, accepted', pass, haccepts⟩
  · exact absurd hforce (hrefuses.force accepted)
  · cases (haccepts.force accepted).1 hforce
    have hreading := hheld
    rw [heldReading?, haccepts.reading] at hreading
    have hbefore := Verdict.winner?_committed_of_ne p d hne
    cases pass with
    | off => cases hreading
    | unsaved read e => cases hreading
    | done read =>
      cases hreading
      rw [haccepts.next, Pass.winner?_next_done, hbefore]
      have hiff := @stays_eq_false_iff accepted scope p.observed read hexempt hne
      by_cases hobserved : scope.name ∈ p.observed.names
      · rw [if_pos hobserved]
        exact if_neg (Bool.eq_false_iff.1 (hiff.2 ⟨hobserved, hleft⟩))
      · have hstays : stays accepted (p.observed.diff read) scope = true := by
          rw [← Bool.not_eq_false, hiff]
          exact fun h => hobserved h.1
        rw [if_neg hobserved]
        exact if_pos hstays

/-- A scope that has no winner or is remembered stays so while nothing comes into force there. -/
theorem gone_or_observed_next {p : Pipeline} {t : Turn σ} {scope : Scope}
    (hexempt : scope.isExempt = false) (hnot : ¬BringsIntoForce env p t scope)
    (h : p.store.winner? scope = none ∨ scope.name ∈ p.observed) :
    (t.next env p).store.winner? scope = none ∨ scope.name ∈ (t.next env p).observed := by
  rcases refuses_or_accepts env p t with hrefuses | ⟨d, accepted, pass, haccepts⟩
  · rw [hrefuses.next]
    exact h
  · have hne : scope ≠ accepted := fun heq => hnot ((haccepts.force scope).2 heq)
    have hbefore := Verdict.winner?_committed_of_ne p d hne
    rw [haccepts.next]
    rw [← hbefore] at h
    -- a pass that fails keeps the winners and what is remembered, one that holds keeps only members
    cases pass with
    | off => exact h
    | unsaved groups e => exact h
    | done groups =>
      by_cases hmember : scope.name ∈ groups
      · exact .inr hmember
      · refine .inl ?_
        rw [Pass.winner?_next_done]
        rcases h with hnone | hobserved
        · rw [hnone, ite_self]
        · have hdropped := (stays_eq_false_iff hexempt hne).2 ⟨hobserved, hmember⟩
          exact if_neg (Bool.eq_false_iff.1 hdropped)

/-- Whether no turn of a run brings a document into force in a scope. -/
def Untouched (env : Surroundings (StateM σ)) (p : Pipeline) (scope : Scope)
    (turns : List (Turn σ)) : Prop :=
  ∀ before t after, turns = before ++ t :: after →
    ¬BringsIntoForce env (run env p before) t scope

theorem gone_or_observed_run {p : Pipeline} {turns : List (Turn σ)} {scope : Scope}
    (hexempt : scope.isExempt = false) (huntouched : Untouched env p scope turns)
    (h : p.store.winner? scope = none ∨ scope.name ∈ p.observed) :
    (run env p turns).store.winner? scope = none ∨ scope.name ∈ (run env p turns).observed := by
  induction turns generalizing p with
  | nil => exact h
  | cons t turns ih =>
    rw [run_cons]
    refine ih ?_ (gone_or_observed_next hexempt (huntouched [] t turns rfl) h)
    intro before u after hsplit
    exact huntouched (t :: before) u after (by rw [hsplit, List.cons_append])

/-- Whether a run ends with a pass that held and read some groups; the building of the pipeline
counts as one. -/
def EndsWithPass (env : Surroundings (StateM σ)) (p : Pipeline) (turns : List (Turn σ))
    (groups : NameSet) : Prop :=
  (turns = [] ∧ groups = p.observed) ∨
    ∃ before t, turns = before ++ [t] ∧ heldReading? (t.events env (run env p before)) = some groups

theorem observed_of_endsWithPass {p : Pipeline} {turns : List (Turn σ)} {groups : NameSet}
    (h : EndsWithPass env p turns groups) : (run env p turns).observed = groups := by
  rcases h with ⟨rfl, rfl⟩ | ⟨before, t, rfl, hheld⟩
  · rfl
  · rw [run_append, run_cons, run_nil, observed_next, hheld]
    rfl

/-- When a pass holds after an acceptance, the winner of a group that the device is not in is gone
if and only if the last pass before that held had read the group.  So it is gone if any pass that
held has read the group since its winner was accepted. -/
theorem left_group_gone_iff_remembered (env : Surroundings (StateM σ)) (policy : Policy)
    (store : Store) (built : NameSet) (before : List (Turn σ)) (t : Turn σ)
    {accepted scope : Scope} {groups : NameSet}
    (hforce : BringsIntoForce env (run env (start policy store built) before) t accepted)
    (hheld : heldReading? (t.events env (run env (start policy store built) before)) = some groups)
    (hexempt : scope.isExempt = false) (hne : scope ≠ accepted) (hleft : scope.name ∉ groups) :
    let p := run env (start policy store built) before
    ((t.next env p).store.winner? scope = none ↔
      p.store.winner? scope = none ∨
        scope.name ∈ lastHeld built (journals env (start policy store built) before)) ∧
    ∀ early late read, before = early ++ late →
      EndsWithPass env (start policy store built) early read → scope.name ∈ read →
      Untouched env (run env (start policy store built) early) scope late →
      (t.next env p).store.winner? scope = none := by
  intro p
  have hnext := winner?_next_of_held hforce hheld hexempt hne hleft
  have hobserved : p.observed = lastHeld built (journals env (start policy store built) before) :=
    observed_run env (start policy store built) before
  have hiff : (t.next env p).store.winner? scope = none ↔
      p.store.winner? scope = none ∨ scope.name ∈ p.observed := by
    rw [hnext]
    by_cases hmember : scope.name ∈ p.observed.names
    · rw [if_pos hmember]
      exact ⟨fun _ => .inr hmember, fun _ => rfl⟩
    · rw [if_neg hmember]
      exact ⟨.inl, fun h => h.resolve_right hmember⟩
  refine ⟨by rw [← hobserved]; exact hiff, ?_⟩
  intro early late read hsplit hpass hread huntouched
  rw [← observed_of_endsWithPass hpass] at hread
  have hrun : p = run env (run env (start policy store built) early) late := by
    rw [← run_append, ← hsplit]
  have hgone := gone_or_observed_run hexempt huntouched (.inr hread)
  rw [← hrun] at hgone
  exact hiff.2 hgone

/-! ### A group that only a failed pass has read -/

/-- Surroundings that read the groups off the world and save as the world tells, and then always. -/
def scripted : Surroundings (StateM (NameSet × List Bool)) where
  now := pure .epoch
  groups := do return (← get).1
  save _ := do
    let (groups, answers) ← get
    set (groups, answers.tail)
    return if answers.headD true then .ok () else .error (.rename "" ⟨"", 5⟩)
  apply _ := pure (.ok ())

/-- A turn with a document, the groups of the device and what comes of saving. -/
def scriptedTurn (d : Document) (groups : List String) (answers : List Bool) :
    Turn (NameSet × List Bool) :=
  ⟨⟨.direct, .document d⟩, (.ofList groups, answers)⟩

/-- The winner of a group is gone when the device has left the group. -/
theorem left_group_gone_after_held_pass :
    let p := start ⟨.empty, true⟩ .empty (.ofList ["thinggroup/a"])
    let joined := scriptedTurn (bare "a1" "thinggroup/a" 1) ["thinggroup/a"] []
    let gone := scriptedTurn (bare "l1" "LOCAL_DEPLOYMENT" 2) [] []
    (run scripted p [joined]).store.winner? ⟨"thinggroup/a"⟩ ≠ none ∧
      (gone.next scripted (run scripted p [joined])).store.winner? ⟨"thinggroup/a"⟩ = none := by
  intro p joined gone
  have hforce : BringsIntoForce scripted (run scripted p [joined]) gone ⟨"LOCAL_DEPLOYMENT"⟩ := by
    decide +kernel
  have hheld : heldReading? (gone.events scripted (run scripted p [joined])) = some .empty := by
    decide +kernel
  have hread : heldReading? (joined.events scripted p) = some (.ofList ["thinggroup/a"]) := by
    decide +kernel
  have hexempt : Scope.isExempt ⟨"thinggroup/a"⟩ = false := by decide
  have hall := left_group_gone_iff_remembered scripted ⟨.empty, true⟩ .empty
    (.ofList ["thinggroup/a"]) [joined] gone hforce hheld hexempt (by decide)
    NameSet.not_mem_empty
  have hmember : "thinggroup/a" ∈ NameSet.ofList ["thinggroup/a"] := by
    rw [NameSet.mem_ofList]
    exact List.mem_singleton_self _
  refine ⟨by decide +kernel, hall.2 [joined] [] (.ofList ["thinggroup/a"]) rfl ?_ hmember ?_⟩
  · exact .inr ⟨[], joined, rfl, hread⟩
  · intro b t a hsplit
    cases b <;> cases hsplit

/-- A group whose winner was accepted in a turn with a failing pass, which read the group, keeps its
winner after the device has left it: the reading was not remembered. -/
theorem left_group_kept_after_failed_pass :
    let p := start ⟨.empty, true⟩ .empty (.ofList ["thinggroup/a"])
    let first := scriptedTurn (bare "a1" "thinggroup/a" 1) ["thinggroup/a"] []
    let second := scriptedTurn (bare "g1" "thinggroup/g" 2) ["thinggroup/g"] [true, false]
    let third := scriptedTurn (bare "l1" "LOCAL_DEPLOYMENT" 3) [] []
    let q := run scripted p [first, second]
    BringsIntoForce scripted (run scripted p [first]) second ⟨"thinggroup/g"⟩ ∧
      reading? (second.events scripted (run scripted p [first])) =
        some ⟨.ofList ["thinggroup/g"], false⟩ ∧
      BringsIntoForce scripted q third ⟨"LOCAL_DEPLOYMENT"⟩ ∧
      heldReading? (third.events scripted q) = some .empty ∧
      (third.next scripted q).store.winner? ⟨"thinggroup/g"⟩ ≠ none := by
  intro p first second third q
  decide +kernel

end Rollout.Pipeline
