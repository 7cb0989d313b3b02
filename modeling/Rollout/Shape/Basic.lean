import Rollout.Calendar.Rfc3339
import Rollout.Json.Tree
import Rollout.Names.Map
import Rollout.Names.Set

/-!
# Shapes of written values

A `Shape` describes how a value is written down: as a text, a number, a list, a record with named
fields and so on.  `Shape.Carrier` is the type of the values of a shape, and `Shape.toJson` writes
one.  The readers of the neighbouring modules deliver values of the same type, so that reading and
writing are two functions on one description.
-/

namespace Rollout

inductive Presence where
  | required
  | omittable
  deriving DecidableEq, Repr

mutual

/-- How a value is written down. -/
inductive Shape where
  | text
  /-- A text that is the name of a file or directory. -/
  | path
  | int64
  | uint64
  | uint32
  | flag
  /-- A time in RFC 3339 form. -/
  | time
  | choice (names : List String)
  /-- Null, or a value of another shape. -/
  | optional (inner : Shape)
  | sequence (item : Shape)
  /-- A list of texts whose order and repetitions do not matter. -/
  | nameSet
  | table (value : Shape)
  | pair (first second : Shape)
  /-- Named fields; a `closed` record refuses names that it does not know. -/
  | record (title : String) (closed : Bool) (fields : Layout)

inductive Layout where
  | nil
  /-- A field with its name, further names for reading and its shape, before other fields. -/
  | field (name : String) (aliases : List String) (presence : Presence) (shape : Shape)
      (rest : Layout)

end

/-- The type of a field's value, given the type of the values of its shape. -/
abbrev Presence.Carrier : Presence → Type → Type
  | required, α => α
  | omittable, α => Option α

mutual

@[reducible] def Shape.Carrier : Shape → Type
  | .text => String
  | .path => String
  | .int64 => Int64
  | .uint64 => UInt64
  | .uint32 => UInt32
  | .flag => Bool
  | .time => Calendar.Instant
  | .choice names => Fin names.length
  | .optional inner => Option inner.Carrier
  | .sequence item => List item.Carrier
  | .nameSet => NameSet
  | .table value => NameMap value.Carrier
  | .pair first second => first.Carrier × second.Carrier
  | .record _ _ fields => fields.Carrier

@[reducible] def Layout.Carrier : Layout → Type
  | .nil => Unit
  | .field _ _ presence shape rest => presence.Carrier shape.Carrier × rest.Carrier

end

/-- The value of a named field of a shape that is not there, although it should be: only an optional
value can be missing. -/
def Shape.whenMissing : (shape : Shape) → Option shape.Carrier
  | .optional _ => some none
  | _ => none

namespace Layout

def names : Layout → List String
  | .nil => []
  | .field name _ _ _ rest => name :: rest.names

/-- All names under which fields are read, in the order of the fields. -/
def allNames : Layout → List String
  | .nil => []
  | .field name aliases _ _ rest => name :: aliases ++ rest.allNames

def size : Layout → Nat
  | .nil => 0
  | .field _ _ _ _ rest => rest.size + 1

@[reducible] def Draft : Layout → Type
  | .nil => Unit
  | .field _ _ _ shape rest => Option shape.Carrier × rest.Draft

def blank : (fields : Layout) → fields.Draft
  | .nil => ()
  | .field _ _ _ _ rest => (none, rest.blank)

def omitted {α : Type} : (presence : Presence) → Option (presence.Carrier α)
  | .required => none
  | .omittable => some none

def present {α : Type} (value : α) : (presence : Presence) → presence.Carrier α
  | .required => value
  | .omittable => some value

/-- The value of a named field that is not there: none if it may be left out or be null. -/
def missing (shape : Shape) (presence : Presence) : Option (presence.Carrier shape.Carrier) :=
  match presence with
  | .required => shape.whenMissing
  | .omittable => some none

/-- Completes a draft; the error names the first field that must be there and is not. -/
def finish : (fields : Layout) → fields.Draft → Except String fields.Carrier
  | .nil, () => .ok ()
  | .field name _ presence shape rest, (value?, others) => do
    let value ←
      match value? with
      | some value => pure (present value presence)
      | none => (missing shape presence).elim (.error name) pure
    return (value, ← rest.finish others)

end Layout

/-! ### Writing -/

mutual

def Shape.toJson : (shape : Shape) → shape.Carrier → Json
  | .text, s => .string s
  | .path, s => .string s
  | .int64, n => .int n.toInt
  | .uint64, n => .int n.toNat
  | .uint32, n => .int n.toNat
  | .flag, b => .bool b
  | .time, t => .string t.render
  | .choice names, i => .string (names.get i)
  | .optional inner, value =>
    match value with
    | some x => inner.toJson x
    | none => .null
  | .sequence item, xs => .array (xs.map item.toJson)
  | .nameSet, set => .array (set.names.map .string)
  | .table value, table => .object (table.entries.map fun e => (e.1, value.toJson e.2))
  | .pair first second, (a, b) => .array [first.toJson a, second.toJson b]
  | .record _ _ fields, values => .object (fields.toMembers values)

def Layout.toMembers : (fields : Layout) → fields.Carrier → List (String × Json)
  | .nil, () => []
  | .field name _ .required shape rest, (value, others) =>
    (name, shape.toJson value) :: rest.toMembers others
  | .field name _ .omittable shape rest, (value, others) =>
    match value with
    | some x => (name, shape.toJson x) :: rest.toMembers others
    | none => rest.toMembers others

end

end Rollout
