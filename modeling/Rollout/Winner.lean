import Rollout.Document.Basic

/-!
# Winners

The winner of a scope is the accepted deployment that is in force there.  It lists the components of
its document, each with the group and the deployment that brought it, and the place of its
acceptance among all acceptances on the device.

Specification: A.3 (ScopeWinner), B.5.
-/

namespace Rollout

structure Contribution where
  version : String
  group : String
  deployment : String
  deriving DecidableEq, Repr

instance : Shaped Contribution where
  shape := .record "ComponentEntry" false <|
    .field "version" [] .required .text <|
    .field "group_name" [] .required .text <|
    .field "configuration_id" [] .required .text
    .nil
  toCarrier c := (c.version, c.group, c.deployment, ())
  ofCarrier | (version, group, deployment, ()) => ⟨version, group, deployment⟩
  ofCarrier_toCarrier _ := rfl

structure Winner where
  scope : Scope
  deployment : String
  target : String
  createdAt : Int64
  /-- The place among all acceptances. -/
  sequence : UInt64
  components : NameMap Contribution
  deriving DecidableEq, Repr

instance : Shaped Winner where
  shape := .record "ScopeWinner" false <|
    .field "scope_key" [] .required (Shaped.shape Scope) <|
    .field "deployment_id" [] .required .text <|
    .field "target_group" [] .required .text <|
    .field "creation_timestamp" [] .required .int64 <|
    .field "accepted_sequence" [] .omittable .uint64 <|
    .field "components" [] .required (Shaped.shape (NameMap Contribution))
    .nil
  toCarrier w := (Shaped.toCarrier w.scope, w.deployment, w.target, w.createdAt, some w.sequence,
    Shaped.toCarrier w.components, ())
  ofCarrier
    | (scope, deployment, target, createdAt, sequence, components, ()) =>
      ⟨Shaped.ofCarrier scope, deployment, target, createdAt, sequence.getD 0,
        Shaped.ofCarrier components⟩
  ofCarrier_toCarrier w := by
    simp only [Shaped.ofCarrier_toCarrier, Option.getD_some]

namespace Winner

/-- The winner that a document makes for a scope, before it has a place among the acceptances. -/
def ofDocument (scope : Scope) (d : Document) : Winner where
  scope := scope
  deployment := d.id
  target := d.target
  createdAt := d.createdAt
  sequence := 0
  components := d.components.mapValues fun _ version => ⟨version, d.target, d.id⟩

def versions (w : Winner) : NameMap String := w.components.mapValues fun _ c => c.version

/-- A winner brings the components of its document in their versions. -/
@[simp] theorem versions_ofDocument (scope : Scope) (d : Document) :
    (ofDocument scope d).versions = d.components := by
  let contribute (_ : String) (version : String) : Contribution := ⟨version, d.target, d.id⟩
  let version (_ : String) (c : Contribution) : String := c.version
  have h : ∀ name v, version name (contribute name v) = v := fun _ _ => rfl
  exact NameMap.mapValues_mapValues_of_inverse h d.components

end Winner
end Rollout
