import Rollout.Capability
import Rollout.Deployment
import Rollout.Hierarchy

/-!
# What screening refuses

Closed forms of the checks that a deployment meets before its document competes, and of the failures
that they end in.
-/

namespace Rollout.Pipeline

/-! ### Documents -/

theorem failure_of_build {r : Request} {failure : Failure} (h : r.build = .error failure) :
    ∃ reason, failure = .invalid reason := by
  unfold Request.build at h
  cases hc : r.check with
  | ok d => rw [hc] at h; cases h
  | error v => rw [hc] at h; cases h; exact ⟨_, rfl⟩

theorem failure_of_document {deployment : Deployment} {failure : Failure}
    (h : deployment.document = .error failure) :
    (∃ reason, failure = .unreadable reason) ∨ ∃ reason, failure = .invalid reason := by
  unfold Deployment.document at h
  cases hp : deployment.payload with
  | document d => rw [hp] at h; cases h
  | text content =>
    rw [hp] at h
    dsimp only [Document.parse] at h
    cases hr : (Shaped.parse content : Except Json.Error Request) with
    | error e => rw [hr] at h; cases h; exact .inl ⟨_, rfl⟩
    | ok r => rw [hr] at h; exact .inr (failure_of_build h)

theorem finalStage_of_document {deployment : Deployment} {failure : Failure}
    (h : deployment.document = .error failure) : failure.finalStage = .rejected := by
  rcases failure_of_document h with ⟨_, rfl⟩ | ⟨_, rfl⟩ <;> rfl

/-! ### Capabilities -/

theorem failure_of_check {supported required : NameSet} {failure : Failure}
    (h : Capability.check supported required = .error failure) :
    failure = .unsupported (Capability.missing supported required).names := by
  unfold Capability.check at h
  split at h
  · cases h
  · cases h
    rfl

theorem finalStage_of_check {supported required : NameSet} {failure : Failure}
    (h : Capability.check supported required = .error failure) :
    failure.finalStage = .rejected := by
  rw [failure_of_check h]
  rfl

/-! ### Hierarchies -/

/-- Whether a document for the group at the top of a hierarchy names a parent of it. -/
def namesParentOfTop (d : Document) : Bool :=
  d.parent.isSome && (d.onBehalfOf = none || d.onBehalfOf = some ⟨d.target⟩)

/-- Whether a document is for a hierarchy that a device in the given groups is not in. -/
def foreignTo (groups : NameSet) (d : Document) : Bool :=
  d.onBehalfOf.any fun scope => !groups.contains scope.name

theorem checkTop_eq (d : Document) (scope : Scope) :
    Hierarchy.checkTop d scope =
      if d.parent.isSome then .error (.hierarchy scope (Hierarchy.parentReason (d.parent.getD "")))
      else .ok () := by
  unfold Hierarchy.checkTop
  cases d.parent <;> rfl

theorem place_eq (groups : NameSet) (d : Document) :
    Hierarchy.place groups d =
      if foreignTo groups d then .error (.hierarchy (Hierarchy.scopeOf d) Hierarchy.foreignReason)
      else if namesParentOfTop d then
        .error (.hierarchy (Hierarchy.scopeOf d) (Hierarchy.parentReason (d.parent.getD "")))
      else .ok ⟨Hierarchy.scopeOf d, if d.onBehalfOf.isSome then .onBehalfOf else .target⟩ := by
  unfold Hierarchy.place foreignTo namesParentOfTop Hierarchy.scopeOf
  simp only [checkTop_eq]
  cases d.onBehalfOf with
  | none => cases d.parent <;> rfl
  | some scope =>
    have htarget : (scope.name = d.target) = (scope = ⟨d.target⟩) := by
      cases scope
      simp
    -- the parent is only looked at if the scope is the target group itself
    by_cases htop : scope = ⟨d.target⟩
    · subst htop
      cases d.parent <;> simp [Functor.map, Except.map]
    · simp [htarget, htop]

theorem failure_of_place {groups : NameSet} {d : Document} {failure : Failure}
    (h : Hierarchy.place groups d = .error failure) :
    (foreignTo groups d || namesParentOfTop d) = true ∧
      ∃ reason, failure = .hierarchy (Hierarchy.scopeOf d) reason := by
  rw [place_eq] at h
  split at h
  · rename_i hforeign
    cases h
    exact ⟨by rw [hforeign, Bool.true_or], _, rfl⟩
  · split at h
    · rename_i hparent
      cases h
      exact ⟨by rw [hparent, Bool.or_true], _, rfl⟩
    · cases h

theorem not_foreignTo_of_place {groups : NameSet} {d : Document} {place : Hierarchy.Place}
    (h : Hierarchy.place groups d = .ok place) :
    (foreignTo groups d || namesParentOfTop d) = false := by
  rw [place_eq] at h
  split at h
  · cases h
  · rename_i hforeign
    split at h
    · cases h
    · rename_i hparent
      rw [Bool.eq_false_iff.2 hforeign, Bool.eq_false_iff.2 hparent]
      rfl

theorem finalStage_of_place {groups : NameSet} {d : Document} {failure : Failure}
    (h : Hierarchy.place groups d = .error failure) : failure.finalStage = .rejected := by
  obtain ⟨-, reason, rfl⟩ := failure_of_place h
  rfl

end Rollout.Pipeline
