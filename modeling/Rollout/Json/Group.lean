import Rollout.Json.Token

/-!
# Items and members of JSON text

The grammar of arrays and objects, with the readers of their items as parameters: where an item or a
member may start (`nextItem`, `nextMember`), how a container ends (`endArray`, `endObject`), and the
loops that read all items or members.
-/

namespace Rollout.Json

/-! ### Steps -/

/-- Looks for the next item of an array: whether there is one, and the place where it starts. -/
def nextItem (first : Bool) (c : Cursor) : Except Error (Bool × Cursor) :=
  let c := c.skipSpace
  match c.rest with
  | [] => c.failNext .endInList
  | s :: _ =>
    if s = some ']' then .ok (false, c)
    else if first then .ok (true, c)
    else if s = some ',' then
      let c := c.advance.skipSpace
      match c.rest with
      | [] => c.failNext .endInValue
      | s :: _ => if s = some ']' then c.failNext .trailingComma else .ok (true, c)
    else c.failNext .expectedListEnd

/-- Looks for the next member of an object: its name, if there is one, and the place after it. -/
def nextMember (first : Bool) (c : Cursor) : Except Error (Option String × Cursor) :=
  let c := c.skipSpace
  match c.rest with
  | [] => c.failNext .endInObject
  | s :: _ =>
    if s = some '\x7d' then .ok (none, c)
    else if first then
      if s = some '"' then (readString c.advance).map fun r => (some r.1, r.2)
      else c.failNext .keyNotString
    else if s = some ',' then
      let c := c.advance.skipSpace
      match c.rest with
      | [] => c.failNext .endInValue
      | s :: _ =>
        if s = some '"' then (readString c.advance).map fun r => (some r.1, r.2)
        else if s = some '\x7d' then c.failNext .trailingComma
        else c.failNext .keyNotString
    else c.failNext .expectedObjectEnd

def passColon (c : Cursor) : Except Error Cursor :=
  let c := c.skipSpace
  match c.rest with
  | [] => c.failNext .endInObject
  | s :: _ => if s = some ':' then .ok c.advance else c.failNext .expectedColon

def endArray (c : Cursor) : Except Error Cursor :=
  let c := c.skipSpace
  match c.rest with
  | [] => c.failNext .endInList
  | s :: _ =>
    if s = some ']' then .ok c.advance
    else if s = some ',' then
      let c := c.advance.skipSpace
      if c.nextChar? = some ']' then c.failNext .trailingComma else c.failNext .trailingCharacters
    else c.failNext .trailingCharacters

def endObject (c : Cursor) : Except Error Cursor :=
  let c := c.skipSpace
  match c.rest with
  | [] => c.failNext .endInObject
  | s :: _ =>
    if s = some '\x7d' then .ok c.advance
    else if s = some ',' then c.failNext .trailingComma
    else c.failNext .trailingCharacters

/-- The place that an error about a whole array is given: after its end, as far as it is there. -/
def pastArray (c : Cursor) : Cursor :=
  let c := c.skipSpace
  if c.nextChar? = some ']' then c.advance
  else if c.nextChar? = some ',' then c.advance.skipSpace
  else c

/-- The place that an error about a whole object is given: after its end, as far as it is there. -/
def pastObject (c : Cursor) : Cursor :=
  let c := c.skipSpace
  if c.nextChar? = some '\x7d' then c.advance else c

/-! ### Loops -/

/-- Reads the items of an array and passes its end.  The first argument bounds their number. -/
def readItems {α : Type} (item : Cursor → Outcome α) :
    Nat → (first : Bool) → Cursor → Except Error (List α × Cursor)
  | 0, _, c => c.failNext .endInList
  | n + 1, first, c => do
    let (more, c) ← nextItem first c
    if more then
      let (x, c) ← item c
      let (xs, c) ← readItems item n false c
      return (x :: xs, c)
    else return ([], ← endArray c)

/-- Reads the members of an object up to its end; `member` reads what follows a name and updates a
state.  The first argument bounds their number. -/
def readMembers {σ : Type} (member : String → σ → Cursor → Outcome σ) :
    Nat → (first : Bool) → σ → Cursor → Except Error (σ × Cursor)
  | 0, _, _, c => c.failNext .endInObject
  | n + 1, first, state, c => do
    let (name, c) ← nextMember first c
    match name with
    | none => return (state, c)
    | some name =>
      let (state, c) ← member name state c
      readMembers member n false state c

end Rollout.Json
