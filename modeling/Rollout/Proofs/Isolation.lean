import Rollout.Proofs.Convergence
import Rollout.Proofs.Series

/-!
# Hierarchies do not influence each other

Whether a document is accepted in its scope depends on the times of the documents that competed
there and on nothing else: not on what the documents ask for, not on what becomes of their plans,
and not on what happens in other scopes.
-/

namespace Rollout.Pipeline

/-! ### Contests -/

/-- What came of a document that competed in a scope. -/
structure Contest where
  accepted : Bool
  /-- The time of the winner of the scope afterwards. -/
  time : Option Int64
  deriving DecidableEq, Repr

/-- A document competes with a winner, by their times. -/
def contest (current : Option Int64) (t : Int64) : Contest :=
  if current.all (· < t) then ⟨true, some t⟩ else ⟨false, current⟩

/-- Documents compete one after another. -/
def contestsOf (current : Option Int64) : List Int64 → List Contest
  | [] => []
  | t :: times => contest current t :: contestsOf (contest current t).time times

/-- The time of the winner of a scope. -/
def time? (p : Pipeline) (scope : Scope) : Option Int64 :=
  (p.store.winner? scope).map Winner.createdAt

theorem all_time?_eq_true {p : Pipeline} {scope : Scope} {t : Int64} :
    (p.time? scope).all (· < t) = true ↔ p.store.Later scope t := by
  rw [time?, Store.Later]
  cases p.store.winner? scope <;> simp

theorem contest_of_later {p : Pipeline} {scope : Scope} {t : Int64} (h : p.store.Later scope t) :
    contest (p.time? scope) t = ⟨true, some t⟩ := if_pos (all_time?_eq_true.2 h)

theorem contest_of_le {p : Pipeline} {scope : Scope} {t : Int64} {current : Winner}
    (hcurrent : p.store.winner? scope = some current) (hle : t ≤ current.createdAt) :
    contest (p.time? scope) t = ⟨false, p.time? scope⟩ :=
  if_neg fun hall => Int64.not_lt.2 hle (all_time?_eq_true.1 hall current hcurrent)

/-! ### Contests in a run -/

/-- Whether a deployment got past the comparison with the winner of its scope. -/
def Outcome.accepted (outcome : Outcome) : Bool :=
  match outcome.result with
  | .ok r => (r.history.map Prod.fst).contains .applying
  | .error _ => false

section Contests

variable {σ : Type} (env : Surroundings (StateM σ)) (scope : Scope)

/-- The document of a turn if it passes the checks, with the groups that were read for it, and
competes in a scope. -/
def contender? (p : Pipeline) (t : Turn σ) : Option Document :=
  t.deployment.document.toOption.filter fun d =>
    passes p.policy ((groupsRead? (t.events env p)).getD .empty) d && Hierarchy.scopeOf d = scope

/-- The documents of a run that compete in a scope. -/
def contenders (p : Pipeline) : List (Turn σ) → List Document
  | [] => []
  | t :: turns => (contender? env scope p t).toList ++ contenders (t.next env p) turns

/-- What comes of the documents of a run that compete in a scope. -/
def contests (p : Pipeline) : List (Turn σ) → List Contest
  | [] => []
  | t :: turns =>
    ((contender? env scope p t).map fun _ =>
      ⟨(t.outcome env p).accepted, (t.next env p).time? scope⟩).toList ++
      contests (t.next env p) turns

/-- Whether every acceptance is counted and every state saved in a run, and the winner of a scope is
never dropped. -/
structure Unhindered (p : Pipeline) (turns : List (Turn σ)) : Prop where
  counted : HasRoom env p turns
  saved : ∀ events ∈ journals env p turns, ∀ state e, .save state (.error e) ∉ events
  kept : p.policy.prunes = true → Undisturbed env p scope turns

variable {env scope} {p : Pipeline} {t : Turn σ} {turns : List (Turn σ)}

/-- A run is not hindered where every state can be saved, if all is counted and the winner of the
scope is kept. -/
theorem unhindered_of_save (hsave : ∀ state w, ((env.save state).run w).1 = .ok ())
    (hroom : HasRoom env p turns)
    (hkept : p.policy.prunes = true → Undisturbed env p scope turns) :
    Unhindered env scope p turns where
  counted := hroom
  saved events hevents state e hmem := by
    obtain ⟨w, hw⟩ := genuine_journals env p turns events hevents _ hmem
    rw [hsave] at hw
    cases hw
  kept := hkept

theorem Unhindered.tail (h : Unhindered env scope p (t :: turns)) :
    Unhindered env scope (t.next env p) turns where
  counted := h.counted.cons.2
  saved := (List.forall_mem_cons.1 h.saved).2
  kept hprunes := by
    have hpolicy : (t.next env p).policy = p.policy := policy_run env p [t]
    rw [hpolicy] at hprunes
    exact (h.kept hprunes).tail

/-! ### Verdicts and contests -/

theorem place_groupsRead? (d : Document) (groups : NameSet) (events : List Event) :
    Hierarchy.place ((groupsRead? (Verdict.lookUp d groups ++ events)).getD .empty) d =
      Hierarchy.place groups d := by
  cases ho : d.onBehalfOf with
  | none => exact place_congr ho _ groups
  | some top => rw [Verdict.lookUp, ho]; rfl

theorem passes_groupsRead? (d : Document) (groups : NameSet) (events : List Event) :
    passes p.policy ((groupsRead? (Verdict.lookUp d groups ++ events)).getD .empty) d =
      passes p.policy groups d := by
  rw [passes, place_groupsRead?]
  rfl

theorem Verdict.Placed.passes {deployment : Deployment} {d : Document} {groups : NameSet}
    {place : Hierarchy.Place} (h : Placed p deployment d groups place) :
    passes p.policy groups d = true := by
  rw [Pipeline.passes, h.capable, h.place]
  rfl

theorem contender?_of_placed {d : Document} {groups : NameSet} {place : Hierarchy.Place}
    (hplaced : Verdict.Placed p t.deployment d groups place) {events : List Event}
    (hevents : t.events env p = Verdict.lookUp d groups ++ events) :
    contender? env scope p t = if place.scope = scope then some d else none := by
  rw [contender?, hplaced.document, Except.toOption, Option.filter_some, hevents,
    passes_groupsRead?, hplaced.passes, Hierarchy.scope_of_place hplaced.place]
  simp

theorem contender?_of_not_passes {d : Document} (hd : t.deployment.document = .ok d)
    (h : passes p.policy ((groupsRead? (t.events env p)).getD .empty) d = false) :
    contender? env scope p t = none := by
  rw [contender?, hd, Except.toOption, Option.filter_some, h]
  rfl

theorem accepted_eq {v : Verdict} (hends : t.Ends env p v) (hended : v.stop? = none) :
    (t.outcome env p).accepted = v.path.contains .applying := by
  obtain ⟨history, hpath, hrecord⟩ := hends.recorded hended
  rw [Outcome.accepted, hrecord, ← hpath]
  rfl

/-- A document competes in a scope if its deployment finds this scope. -/
theorem contender?_eq {v : Verdict} (hends : t.Ends env p v) :
    contender? env scope p t = if v.scope? = some scope then v.document? else none := by
  have hfits := hends.fits
  have hevents := hends.events
  cases v with
  | malformed failure =>
    rw [contender?, hfits]
    rfl
  | incapable d failure =>
    refine contender?_of_not_passes hfits.1 ?_
    rw [passes, hfits.2]
    rfl
  | misplaced d groups failure =>
    refine contender?_of_not_passes hfits.1 ?_
    rw [hevents, Verdict.events, ← List.append_nil (Verdict.lookUp d groups), passes_groupsRead?,
      passes, hfits.2.2]
    exact Bool.and_false _
  | stale d groups place current =>
    rw [contender?_of_placed hfits.1 (hevents.trans (List.append_nil _).symm)]
    simp [Verdict.scope?, Verdict.document?]
  | exhausted d groups place =>
    rw [contender?_of_placed hfits.1 (hevents.trans (List.append_nil _).symm)]
    simp [Verdict.scope?, Verdict.document?]
  | unsaved d groups place e =>
    rw [contender?_of_placed hfits.1 hevents]
    simp [Verdict.scope?, Verdict.document?]
  | accepted d groups place pass answer =>
    rw [contender?_of_placed hfits.1 hevents]
    simp [Verdict.scope?, Verdict.document?]

theorem time?_next_of_elsewhere {v : Verdict} (hends : t.Ends env p v)
    (hkept : p.policy.prunes = true → ¬Drops scope (t.events env p))
    (hscope : v.scope? ≠ some scope) : (t.next env p).time? scope = p.time? scope := by
  rcases winner?_next env hends hkept with hsame | haccepted
  · rw [time?, hsame]
    rfl
  · obtain ⟨d, groups, place, pass, answer, rfl, hplace, -⟩ := haccepted
    exact absurd (congrArg some hplace) hscope

/-- A turn leaves the time of a scope, or its document competes there and this decides. -/
theorem contest_turn (hcounted : (t.outcome env p).isExhausted = false)
    (hsaved : ∀ state e, .save state (.error e) ∉ t.events env p)
    (hkept : p.policy.prunes = true → ¬Drops scope (t.events env p)) :
    (contender? env scope p t = none ∧ (t.next env p).time? scope = p.time? scope) ∨
      ∃ d, contender? env scope p t = some d ∧
        contest (p.time? scope) d.createdAt =
          ⟨(t.outcome env p).accepted, (t.next env p).time? scope⟩ := by
  obtain ⟨v, hends⟩ := t.ends env p
  have hcontender : contender? env scope p t =
      if v.scope? = some scope then v.document? else none := contender?_eq hends
  rw [hends.isExhausted_eq, Option.isSome_eq_false_iff, Option.isNone_iff_eq_none] at hcounted
  by_cases hscope : v.scope? = some scope
  · rw [if_pos hscope] at hcontender
    rw [accepted_eq hends hcounted, hends.next]
    refine .inr ?_
    have hfits := hends.fits
    cases v with
    | malformed | incapable | misplaced => cases hscope
    | stale d groups place current =>
      cases hscope
      exact ⟨d, hcontender, contest_of_le hfits.2.1 hfits.2.2⟩
    | exhausted d groups place => cases hcounted
    | unsaved d groups place e =>
      refine absurd ?_ (hsaved (Verdict.committed p place.scope d).store.toSnapshot e)
      rw [hends.events]
      exact List.mem_append_right _ (List.mem_singleton_self _)
    | accepted d groups place pass answer =>
      cases hscope
      refine ⟨d, hcontender, ?_⟩
      rw [contest_of_later hfits.2.1, time?, Verdict.winner?_next_self]
      rfl
  · rw [if_neg hscope] at hcontender
    exact .inl ⟨hcontender, time?_next_of_elsewhere hends hkept hscope⟩

/-! ### Runs -/

/-- What comes of the documents that compete in a scope follows from their times alone. -/
theorem contests_eq (h : Unhindered env scope p turns) :
    contests env scope p turns =
      contestsOf (p.time? scope) ((contenders env scope p turns).map Document.createdAt) := by
  -- the time of the scope is all that the rest of the run needs to know
  induction turns generalizing p with
  | nil => rfl
  | cons t turns ih =>
    have hrest := ih h.tail
    have hsaved := (List.forall_mem_cons.1 h.saved).1
    rw [contests, contenders, hrest]
    rcases contest_turn h.counted.cons.1 hsaved fun hprunes => (h.kept hprunes).head with
      ⟨hnone, hsame⟩ | ⟨d, hsome, hcontest⟩
    · rw [hnone, hsame]
      rfl
    · rw [hsome]
      simp only [Option.map_some, Option.toList_some, List.cons_append, List.nil_append,
        List.map_cons, contestsOf, hcontest]

end Contests

/-- Two runs in which every acceptance is counted, every state is saved and the winner of a scope is
never dropped, that start with winners of the same time in this scope and in which documents of the
same times compete there, one after another: each of them is accepted in both runs or in neither,
and the winners have the same times after each of them, whatever else is different. -/
theorem only_times_decide {σ σ' : Type} (env : Surroundings (StateM σ))
    (env' : Surroundings (StateM σ')) (p p' : Pipeline) (scope : Scope) (turns : List (Turn σ))
    (turns' : List (Turn σ')) (h : Unhindered env scope p turns)
    (h' : Unhindered env' scope p' turns') (hstart : p.time? scope = p'.time? scope)
    (htimes : (contenders env scope p turns).map Document.createdAt =
      (contenders env' scope p' turns').map Document.createdAt) :
    contests env scope p turns = contests env' scope p' turns' := by
  rw [contests_eq h, contests_eq h', hstart, htimes]

/-- A document and a copy of it, with traffic for another group in between, and on a device where
every plan fails the same from a group below the top. -/
theorem only_times_decide_below :
    let groups : NameSet := .ofList ["thinggroup/a"]
    let env := quiet groups
    let env' := { env with apply := fun _ => pure (.error ⟨"out of order", none⟩) }
    let top : Turn Unit := ⟨⟨.jobs, .document (bare "d1" "thinggroup/a" 1)⟩, ()⟩
    let other : Turn Unit := ⟨⟨.shadow, .document (bare "d2" "thinggroup/b" 5)⟩, ()⟩
    let below : Turn Unit :=
      ⟨⟨.direct, .document { bare "d3" "thinggroup/c" 1 with
        onBehalfOf := some ⟨"thinggroup/a"⟩, revision := 7 }⟩, ()⟩
    contests env ⟨"thinggroup/a"⟩ (start ⟨.empty, true⟩ .empty groups) [top, other, top] =
        contests env' ⟨"thinggroup/a"⟩ (start ⟨.empty, false⟩ .empty .empty) [below, below] ∧
      contests env' ⟨"thinggroup/a"⟩ (start ⟨.empty, false⟩ .empty .empty) [below, below] =
        [⟨true, some 1⟩, ⟨false, some 1⟩] := by
  intro groups env env' top other below
  have hkept : Undisturbed env (start ⟨.empty, true⟩ .empty groups) ⟨"thinggroup/a"⟩
      [top, other, top] :=
    .cons (not_drops_of_length (by decide)) (.cons (not_drops_of_length (by decide +kernel))
      (.cons (not_drops_of_length (by decide +kernel)) undisturbed_nil))
  refine ⟨only_times_decide env env' _ _ ⟨"thinggroup/a"⟩ _ _ ?_ ?_ rfl ?_, ?_⟩
  · exact unhindered_of_save (fun _ _ => rfl) (by decide +kernel) fun _ => hkept
  · exact unhindered_of_save (fun _ _ => rfl) (by decide +kernel) nofun
  · decide +kernel
  · decide +kernel

end Rollout.Pipeline
