import Rollout.Json.Tree
import Rollout.Names.Map

/-!
# JSON values with sorted members

`Json.sorted` brings the members of all objects of a value into the order of their names.
-/

namespace Rollout.Json

mutual

/-- The value with the members of all its objects in ascending order of their names. -/
def sorted : Json → Json
  | array items => array (sortedItems items)
  | object members => object (NameMap.ofList (sortedMembers members)).entries
  | other => other

def sortedItems : List Json → List Json
  | [] => []
  | item :: rest => sorted item :: sortedItems rest

/-- The members of an object, each with the members of its value sorted. -/
def sortedMembers : List (String × Json) → List (String × Json)
  | [] => []
  | (name, value) :: rest => (name, sorted value) :: sortedMembers rest

end

end Rollout.Json
