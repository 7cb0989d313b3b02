import Rollout.Channel
import Rollout.Document.Basic

/-!
# Deployments on their way

A `Deployment` is what arrives on a channel: a document, or a text that may turn out not to be one.
Its identity is known before the text is checked, as far as the text allows.

Specification: B.8.
-/

namespace Rollout

inductive Payload where
  | document (document : Document)
  | text (content : String)
  deriving DecidableEq, Repr

structure Deployment where
  channel : Channel
  payload : Payload
  deriving DecidableEq, Repr

namespace Deployment

def unknownId : String := "<unknown>"

def textMember? (name : String) (json : Json) : Option String :=
  match json.member? name with
  | some (.string s) => some s
  | _ => none

/-- The identity that a JSON text shows: the first of its members for it that is a text. -/
def shownId? (content : String) : Option String :=
  match Json.parse content with
  | .error _ => none
  | .ok json =>
    ((textMember? "deploymentId" json).or (textMember? "id" json)).filter fun id => !Text.isBlank id

def id (deployment : Deployment) : String :=
  match deployment.payload with
  | .document d => d.id
  | .text content => (shownId? content).getD unknownId

def document (deployment : Deployment) : Except Failure Document :=
  match deployment.payload with
  | .document d => .ok d
  | .text content => Document.parse content

end Deployment
end Rollout
