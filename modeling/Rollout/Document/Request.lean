import Rollout.Shape.Shaped

/-!
# Requests

A `Request` is a deployment document as it arrives, before anything about it is checked.  Every
field may be left out, and five of them are also known under a second name.

Specification: A.3 (DeploymentDocument), B.8.
-/

namespace Rollout

structure Request where
  id : String
  target : String
  /-- The group at the top of the hierarchy, of a deployment for a group below it. -/
  onBehalfOf : Option String
  parent : Option String
  createdAt : Int64
  revision : UInt64
  components : NameMap String
  capabilities : List String
  deriving DecidableEq, Repr

namespace Request

/-- A request that leaves everything out but its identity and target. -/
def named (id target : String) : Request := ⟨id, target, none, none, 0, 0, .empty, []⟩

@[reducible] def layout : Layout :=
  .field "deploymentId" ["id"] .omittable .text <|
  .field "targetGroup" ["groupName"] .omittable .text <|
  .field "onBehalfOf" ["onBehalfOfScope"] .omittable (.optional .text) <|
  .field "parentGroup" [] .omittable (.optional .text) <|
  .field "creationTimestamp" ["timestamp"] .omittable .int64 <|
  .field "revision" [] .omittable .uint64 <|
  .field "components" ["componentSpecification"] .omittable (.table .text) <|
  .field "requiredCapabilities" [] .omittable (.sequence .text)
  .nil

instance : Shaped Request where
  shape := .record "RawDeploymentDocument" false layout
  toCarrier r := (some r.id, some r.target, some r.onBehalfOf, some r.parent, some r.createdAt,
    some r.revision, some r.components, some r.capabilities, ())
  ofCarrier
    | (id, target, onBehalfOf, parent, createdAt, revision, components, capabilities, ()) =>
      ⟨id.getD "", target.getD "", onBehalfOf.join, parent.join, createdAt.getD 0,
        revision.getD 0, components.getD .empty, capabilities.getD []⟩
  ofCarrier_toCarrier _ := rfl

end Request
end Rollout
