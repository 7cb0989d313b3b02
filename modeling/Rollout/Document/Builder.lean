import Rollout.Document.Request

/-!
# Requests put together from settings

A request that does not arrive as a text is put together: it starts with its identity and target,
and settings are made one after another.  A later setting of a field, or of the version of a
component, takes the place of an earlier one; capabilities add up.
-/

namespace Rollout.Request

inductive Setting where
  | onBehalfOf (scope : String)
  | parent (group : String)
  | createdAt (time : Int64)
  | revision (number : UInt64)
  | component (name version : String)
  | capability (name : String)
  deriving DecidableEq, Repr

def set (r : Request) : Setting → Request
  | .onBehalfOf scope => { r with onBehalfOf := some scope }
  | .parent group => { r with parent := some group }
  | .createdAt time => { r with createdAt := time }
  | .revision number => { r with revision := number }
  | .component name version => { r with components := r.components.insert name version }
  | .capability name => { r with capabilities := r.capabilities ++ [name] }

def assembled (id target : String) (settings : List Setting) : Request :=
  settings.foldl set (named id target)

end Rollout.Request
