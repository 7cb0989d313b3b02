import Rollout.Json.Reader
import Rollout.Json.Skip
import Rollout.Shape.Basic

/-!
# Reading shaped values from JSON text

`Shape.read` reads a value of a shape from JSON text in one pass, so that the first departure from
the grammar or from the shape is the one that is reported.  A record may be written as an object, in
any order and with unknown members unless it is closed, or as an array of its fields in order, from
which fields that may be left out can be missing at the end.
-/

namespace Rollout

open Json (Cursor Error readString readNumber readWord)

/-! ### Atoms -/

def Json.Number.found : Json.Number → Found
  | .int n => .integer n
  | n => .decimal n.render

def Json.Number.toInt64 (n : Json.Number) : Except Mismatch Int64 :=
  match n with
  | .int i =>
    if Int64.minValue.toInt ≤ i ∧ i ≤ Int64.maxValue.toInt then .ok (Int64.ofInt i)
    else .error (.wrongValue n.found "i64")
  | _ => .error (.wrongType n.found "i64")

def Json.Number.toUInt64 (n : Json.Number) : Except Mismatch UInt64 :=
  match n with
  | .int i =>
    if 0 ≤ i ∧ i < UInt64.size then .ok (UInt64.ofNat i.toNat)
    else .error (.wrongValue n.found "u64")
  | _ => .error (.wrongType n.found "u64")

def Json.Number.toUInt32 (n : Json.Number) : Except Mismatch UInt32 :=
  match n with
  | .int i =>
    if 0 ≤ i ∧ i < UInt32.size then .ok (UInt32.ofNat i.toNat)
    else .error (.wrongValue n.found "u32")
  | _ => .error (.wrongType n.found "u32")

def chooseName (names : List String) (text : String) : Except Mismatch (Fin names.length) :=
  match names.finIdxOf? text with
  | some i => .ok i
  | none => .error (.unknownChoice text names)

def readTime (text : String) : Except Mismatch Calendar.Instant :=
  (Calendar.Instant.parse text).mapError .badTime

def timeDescription : String := "an RFC 3339 formatted date and time string"

def recordDescription (title : String) : String := "struct " ++ title

def recordItemsDescription (title : String) (size : Nat) : String :=
  "struct " ++ title ++ " with " ++ toString size ++ (if size = 1 then " element" else " elements")

def pairDescription : String := "a tuple of size 2"

/-- Reports that the value at the cursor is not what was expected. -/
def unexpected {α : Type} (expected : String) (c : Cursor) : Except Error α :=
  match c.rest with
  | [] => c.failNext .expectedValue
  | s :: _ =>
    if s = some 'n' then do
      let c ← readWord "ull".toList c.advance
      c.mismatch (.wrongType .null expected)
    else if s = some 't' then do
      let c ← readWord "rue".toList c.advance
      c.mismatch (.wrongType (.flag true) expected)
    else if s = some 'f' then do
      let c ← readWord "alse".toList c.advance
      c.mismatch (.wrongType (.flag false) expected)
    else if s = some '-' then do
      let (n, c) ← readNumber true c.advance
      c.mismatch (.wrongType n.found expected)
    else if (Json.digit? s).isSome then do
      let (n, c) ← readNumber false c
      c.mismatch (.wrongType n.found expected)
    else if s = some '"' then do
      let (text, c) ← readString c.advance
      c.mismatch (.wrongType (.text text) expected)
    else if s = some '[' then c.mismatch (.wrongType .sequence expected)
    else if s = some '\x7b' then c.mismatch (.wrongType .table expected)
    else c.failNext .expectedValue

/-- Starts to read a value: passes white space and refuses the end of the text. -/
def atValue (c : Cursor) : Except Error Cursor :=
  let c := c.skipSpace
  if c.rest.isEmpty then c.failNext .endInValue else .ok c

def readText (expected : String) (c : Cursor) : Except Error (String × Cursor) := do
  let c ← atValue c
  if c.nextChar? = some '"' then readString c.advance else unexpected expected c

def readInteger {α : Type} (convert : Json.Number → Except Mismatch α) (expected : String)
    (c : Cursor) : Except Error (α × Cursor) := do
  let c ← atValue c
  let finish (n : Json.Number) (c : Cursor) : Except Error (α × Cursor) :=
    match convert n with
    | .ok x => .ok (x, c)
    | .error m => c.mismatch m
  if c.nextChar? = some '-' then do
    let (n, c) ← readNumber true c.advance
    finish n c
  else if (c.rest.head?.bind Json.digit?).isSome then do
    let (n, c) ← readNumber false c
    finish n c
  else unexpected expected c

def readFlag (c : Cursor) : Except Error (Bool × Cursor) := do
  let c ← atValue c
  if c.nextChar? = some 't' then return (true, ← readWord "rue".toList c.advance)
  else if c.nextChar? = some 'f' then return (false, ← readWord "alse".toList c.advance)
  else unexpected "a boolean" c

def readTextAs {α : Type} (convert : String → Except Mismatch α) (expected : String) (c : Cursor) :
    Except Error (α × Cursor) := do
  let (text, c) ← readText expected c
  match convert text with
  | .ok x => return (x, c)
  | .error m => c.mismatch m

def readNull (c : Cursor) : Except Error Cursor := do
  let c ← atValue c
  if c.nextChar? = some 'n' then readWord "ull".toList c.advance else unexpected "unit" c

/-- Reads one of a list of names: a text, or an object whose one member has that name and the value
null. -/
def readChoice (names : List String) (c : Cursor) : Except Error (Fin names.length × Cursor) := do
  let c := c.skipSpace
  match c.rest with
  | [] => c.failNext .endInValue
  | s :: _ =>
    if s = some '\x7b' then do
      let (i, c) ← readTextAs (chooseName names) "variant identifier" c.advance
      let c ← Json.passColon c
      let c ← readNull c
      let c := c.skipSpace
      if c.rest.isEmpty then c.fail .endInObject
      else if c.nextChar? = some '\x7d' then return (i, c.advance)
      else c.fail .expectedValue
    else if s = some '"' then readTextAs (chooseName names) "variant identifier" c
    else c.failNext .expectedValue

def readSequence {α : Type} (item : Cursor → Json.Outcome α) (c : Cursor) :
    Except Error (List α × Cursor) := do
  let c ← atValue c
  if c.nextChar? = some '[' then Json.readItems item (c.rest.length + 1) true c.advance
  else unexpected "a sequence" c

def readTable {α : Type} (value : Cursor → Json.Outcome α) (c : Cursor) :
    Except Error (NameMap α × Cursor) := do
  let c ← atValue c
  if c.nextChar? = some '\x7b' then do
    let (table, c) ← Json.readMembers (Json.readEntry value) (c.rest.length + 1) true NameMap.empty
      c.advance
    return (table, ← Json.endObject c)
  else unexpected "a map" c

/-- Reads what follows the name of a member of a record into a draft.  A closed record refuses a
name that none of its fields has; other records pass over the value. -/
def readNamed {α : Type} (closed : Bool) (known : List String)
    (field : String → α → Cursor → Option (Json.Outcome α)) (name : String) (draft : α)
    (c : Cursor) : Except Error (α × Cursor) :=
  match field name draft c with
  | some outcome => outcome
  | none =>
    if closed then (Json.pastObject c).mismatch (.unknownField name known)
    else do
      let c ← Json.passColon c
      return (draft, ← Json.skipValue c)

/-! ### Shapes -/

mutual

def Shape.read : (shape : Shape) → Cursor → Except Error (shape.Carrier × Cursor)
  | .text, c => readText "a string" c
  | .path, c => readText "path string" c
  | .int64, c => readInteger Json.Number.toInt64 "i64" c
  | .uint64, c => readInteger Json.Number.toUInt64 "u64" c
  | .uint32, c => readInteger Json.Number.toUInt32 "u32" c
  | .flag, c => readFlag c
  | .time, c => readTextAs readTime timeDescription c
  | .choice names, c => readChoice names c
  | .optional inner, c => do
    let c := c.skipSpace
    if c.nextChar? = some 'n' then return (none, ← readWord "ull".toList c.advance)
    else
      let (x, c) ← inner.read c
      return (some x, c)
  | .sequence item, c => readSequence item.read c
  | .nameSet, c => do
    let (names, c) ← readSequence (readText "a string") c
    return (NameSet.ofList names, c)
  | .table value, c => readTable value.read c
  | .pair first second, c => do
    let c ← atValue c
    if c.nextChar? = some '[' then do
      let (more, c) ← Json.nextItem true c.advance
      if !more then (Json.pastArray c).mismatch (.wrongLength 0 pairDescription)
      else
        let (a, c) ← first.read c
        let (more, c) ← Json.nextItem false c
        if !more then (Json.pastArray c).mismatch (.wrongLength 1 pairDescription)
        else
          let (b, c) ← second.read c
          return ((a, b), ← Json.endArray c)
    else unexpected pairDescription c
  | .record title closed fields, c => do
    let c ← atValue c
    if c.nextChar? = some '[' then do
      let (values, c) ← fields.readItems (recordItemsDescription title fields.size) 0 c.advance
      return (values, ← Json.endArray c)
    else if c.nextChar? = some '\x7b' then do
      let (draft, c) ← Json.readMembers (readNamed closed fields.allNames fields.readMember)
        (c.rest.length + 1) true fields.blank c.advance
      match fields.finish draft with
      | .error name => (Json.pastObject c).mismatch (.missingField name)
      | .ok values => return (values, ← Json.endObject c)
    else unexpected (recordDescription title) c

/-- Reads what follows the name of a member into a draft, if a field has that name. -/
def Layout.readMember : (fields : Layout) → String → fields.Draft → Cursor →
    Option (Except Error (fields.Draft × Cursor))
  | .nil, _, _, _ => none
  | .field name aliases _ shape rest, key, (value, others), c =>
    if key = name || aliases.contains key then
      some (
        if value.isSome then (Json.pastObject c).mismatch (.repeatedField name)
        else do
          let c ← Json.passColon c
          let (x, c) ← shape.read c
          return ((some x, others), c))
    else
      (rest.readMember key others c).map fun outcome =>
        outcome.map fun r => ((value, r.1), r.2)

/-- Reads fields that are written as the items of an array; `index` counts those before. -/
def Layout.readItems : (fields : Layout) → (expected : String) → (index : Nat) → Cursor →
    Except Error (fields.Carrier × Cursor)
  | .nil, _, _, c => .ok ((), c)
  | .field _ _ presence shape rest, expected, index, c => do
    let (more, c) ← Json.nextItem (index = 0) c
    if more then
      let (x, c) ← shape.read c
      let (others, c) ← rest.readItems expected (index + 1) c
      return ((Layout.present x presence, others), c)
    else
      match Layout.omitted presence with
      | some value =>
        let (others, c) ← rest.readItems expected (index + 1) c
        return ((value, others), c)
      | none => (Json.pastArray c).mismatch (.wrongLength index expected)

end

end Rollout
