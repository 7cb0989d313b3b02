import Rollout.Json.Token

/-!
# Passing over a JSON value

The value of a member that nobody asked for is passed over without being built: any depth is
accepted, and escapes and numbers are checked for their form only.
-/

namespace Rollout.Json

inductive Container where
  | array
  | object
  deriving DecidableEq, Repr

namespace Container

def closing : Container → Char
  | array => ']'
  | object => '\x7d'

/-- What is missing where neither a comma nor the closing bracket stands. -/
def unclosed : Container → Fault
  | array => .expectedListEnd
  | object => .expectedObjectEnd

def unended : Container → Fault
  | array => .endInList
  | object => .endInObject

end Container

/-- Passes a value that is no container, or the opening bracket of a container. -/
def skipStart (c : Cursor) : Except Error (Option Container × Cursor) :=
  match c.rest with
  | [] => c.failNext .endInValue
  | s :: _ =>
    if s = some 'n' then (readWord "ull".toList c.advance).map (none, ·)
    else if s = some 't' then (readWord "rue".toList c.advance).map (none, ·)
    else if s = some 'f' then (readWord "alse".toList c.advance).map (none, ·)
    else if s = some '-' then (skipNumber c.advance).map (none, ·)
    else if (digit? s).isSome then (skipNumber c).map (none, ·)
    else if s = some '"' then (skipString c.advance).map (none, ·)
    else if s = some '[' then .ok (some .array, c.advance)
    else if s = some '\x7b' then .ok (some .object, c.advance)
    else c.failNext .expectedValue

def skipName (c : Cursor) : Except Error Cursor :=
  let c := c.skipSpace
  match c.rest with
  | [] => c.failNext .endInObject
  | s :: _ =>
    if s = some '"' then do
      let c ← skipString c.advance
      let c := c.skipSpace
      match c.rest with
      | [] => c.failNext .endInObject
      | s :: _ => if s = some ':' then .ok c.advance else c.failNext .expectedColon
    else c.failNext .keyNotString

/-- Passes closing brackets: the containers still open where the next value starts, or none if the
whole value is passed.  `first` tells that the innermost container has no item yet. -/
def skipClosings : (first : Bool) → List Container → Cursor →
    Except Error (List Container × Cursor)
  | _, [], c => .ok ([], c)
  | first, inner :: outer, c =>
    let c := c.skipSpace
    match c.rest with
    | [] => c.failNext inner.unended
    | s :: _ =>
      if s = some inner.closing then skipClosings false outer c.advance
      else if first then .ok (inner :: outer, c)
      else if s = some ',' then .ok (inner :: outer, c.advance)
      else c.failNext inner.unclosed

/-- Passes the rest of a value inside the given open containers, the innermost first.  The first
argument bounds the number of values inside. -/
def skipFrom : Nat → List Container → Cursor → Except Error Cursor
  | 0, _, c => c.failNext .endInValue
  | n + 1, opened, c => do
    let (new, c) ← skipStart c.skipSpace
    let (opened, c) ← skipClosings new.isSome (new.toList ++ opened) c
    match opened with
    | [] => return c
    | .array :: _ => skipFrom n opened c
    | .object :: _ => skipFrom n opened (← skipName c)

def skipValue (c : Cursor) : Except Error Cursor := skipFrom (c.rest.length + 1) [] c

end Rollout.Json
