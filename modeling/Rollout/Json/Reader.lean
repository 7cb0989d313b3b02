import Rollout.Json.Group
import Rollout.Names.Map

/-!
# Reading whole JSON values

`Json.parse` reads any JSON text.  Containers may be nested 127 deep; the members of an object end
up in ascending order of their names, and of two members of one name the later stays.
-/

namespace Rollout.Json

/-- The number of open containers that a value may be read in, plus one. -/
def depthLimit : Nat := 128

def readEntry {α : Type} (value : Cursor → Outcome α) (name : String) (table : NameMap α)
    (c : Cursor) : Except Error (NameMap α × Cursor) := do
  let c ← passColon c
  let (x, c) ← value c
  return (table.insert name x, c)

def readValue : Nat → Cursor → Except Error (Json × Cursor)
  | depth, c =>
    let c := c.skipSpace
    match c.rest with
    | [] => c.failNext .endInValue
    | s :: _ =>
      if s = some 'n' then (readWord "ull".toList c.advance).map (null, ·)
      else if s = some 't' then (readWord "rue".toList c.advance).map (bool true, ·)
      else if s = some 'f' then (readWord "alse".toList c.advance).map (bool false, ·)
      else if s = some '-' then (readNumber true c.advance).map fun r => (number r.1, r.2)
      else if (digit? s).isSome then (readNumber false c).map fun r => (number r.1, r.2)
      else if s = some '"' then (readString c.advance).map fun r => (string r.1, r.2)
      else if s = some '[' then
        match depth with
        | 0 => c.failNext .tooDeep
        | depth + 1 => do
          let (items, c) ← readItems (readValue depth) (c.rest.length + 1) true c.advance
          return (array items, c)
      else if s = some '\x7b' then
        match depth with
        | 0 => c.failNext .tooDeep
        | depth + 1 => do
          let (table, c) ← readMembers (readEntry (readValue depth)) (c.rest.length + 1) true
            NameMap.empty c.advance
          return (object table.entries, ← endObject c)
      else c.failNext .expectedValue

def endText {α : Type} (value : α) (c : Cursor) : Except Error α :=
  let c := c.skipSpace
  if c.rest.isEmpty then .ok value else c.failNext .trailingCharacters

def parse (text : String) : Except Error Json := do
  let (value, c) ← readValue (depthLimit - 1) (Cursor.start (Text.symbols text))
  endText value c

end Rollout.Json
