import Rollout.Document.Basic

/-!
# Group hierarchies

Deployments for groups of one hierarchy compete under the group at its top.  A document for a group
below the top names that group, of which the device has to be a member; otherwise its target is the
top, which has no parent.

Specification: A.4 (ScopeResolver).
-/

namespace Rollout.Hierarchy

inductive Source where
  | onBehalfOf
  | target
  deriving DecidableEq, Repr

structure Place where
  scope : Scope
  source : Source
  deriving DecidableEq, Repr

def foreignReason : String := "device is not a member of this group hierarchy"

def parentReason (parent : String) : String :=
  "root deployment names parent group '" ++ parent ++ "'"

def checkTop (d : Document) (scope : Scope) : Except Failure Unit :=
  match d.parent with
  | none => .ok ()
  | some parent => .error (.hierarchy scope (parentReason parent))

/-- The scope of a document on a device that is a member of the given groups.  The groups matter
only if the document names the group at the top. -/
def place (groups : NameSet) (d : Document) : Except Failure Place :=
  match d.onBehalfOf with
  | some scope =>
    if !groups.contains scope.name then .error (.hierarchy scope foreignReason)
    else if scope.name = d.target then do
      checkTop d scope
      return ⟨scope, .onBehalfOf⟩
    else .ok ⟨scope, .onBehalfOf⟩
  | none => do
    checkTop d ⟨d.target⟩
    return ⟨⟨d.target⟩, .target⟩

def scopeOf (d : Document) : Scope := d.onBehalfOf.getD ⟨d.target⟩

/-- Groups decide whether a document gets a place, but not which one. -/
theorem scope_of_place {groups : NameSet} {d : Document} {p : Place} (h : place groups d = .ok p) :
    p.scope = scopeOf d := by
  unfold place at h
  unfold scopeOf
  cases ho : d.onBehalfOf with
  | none =>
    rw [ho] at h
    cases hc : checkTop d ⟨d.target⟩ with
    | ok _ => dsimp only at h; rw [hc] at h; cases h; rfl
    | error e => dsimp only at h; rw [hc] at h; cases h
  | some scope =>
    rw [ho] at h
    dsimp only at h
    split at h
    · cases h
    · split at h
      · cases hc : checkTop d scope with
        | ok _ => rw [hc] at h; cases h; rfl
        | error e => rw [hc] at h; cases h
      · cases h
        rfl

end Rollout.Hierarchy
