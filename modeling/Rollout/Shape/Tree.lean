import Rollout.Shape.Text

/-!
# Reading shaped values from JSON values

`Shape.ofJson` reads a value of a shape from a JSON value that is already there.  It accepts what
`Shape.read` accepts; its errors have no place in a text, and an array that is too long for its
shape is reported by its length.
-/

namespace Rollout

def Json.found : Json → Found
  | .null => .null
  | .bool b => .flag b
  | .number n => n.found
  | .string s => .text s
  | .array _ => .sequence
  | .object _ => .table

def Json.asText (expected : String) : Json → Except Mismatch String
  | .string s => .ok s
  | other => .error (.wrongType other.found expected)

def Json.asInteger {α : Type} (convert : Json.Number → Except Mismatch α) (expected : String) :
    Json → Except Mismatch α
  | .number n => convert n
  | other => .error (.wrongType other.found expected)

def Json.asItems (expected : String) : Json → Except Mismatch (List Json)
  | .array items => .ok items
  | other => .error (.wrongType other.found expected)

/-- Fails unless all items of an array of the given length were used. -/
def noneLeft (length : Nat) (rest : List Json) : Except Mismatch Unit :=
  if rest.isEmpty then .ok () else .error (.wrongLength length "fewer elements in array")

def Json.asChoice (names : List String) : Json → Except Mismatch (Fin names.length)
  | .string s => chooseName names s
  | .object [(name, value)] => do
    let i ← chooseName names name
    match value with
    | .null => return i
    | other => .error (.wrongType other.found "unit")
  | .object _ => .error (.wrongValue .table "map with a single key")
  | other => .error (.wrongType other.found "string or map")

mutual

def Shape.ofJson : (shape : Shape) → Json → Except Mismatch shape.Carrier
  | .text, json => json.asText "a string"
  | .path, json => json.asText "path string"
  | .int64, json => json.asInteger Json.Number.toInt64 "i64"
  | .uint64, json => json.asInteger Json.Number.toUInt64 "u64"
  | .uint32, json => json.asInteger Json.Number.toUInt32 "u32"
  | .flag, json =>
    match json with
    | .bool b => .ok b
    | other => .error (.wrongType other.found "a boolean")
  | .time, json => do readTime (← json.asText timeDescription)
  | .choice names, json => json.asChoice names
  | .optional inner, json =>
    match json with
    | .null => .ok none
    | other => (inner.ofJson other).map some
  | .sequence item, json => do (← json.asItems "a sequence").mapM item.ofJson
  | .nameSet, json => do
    return NameSet.ofList (← (← json.asItems "a sequence").mapM (Json.asText "a string"))
  | .table value, json =>
    match json with
    | .object members => do
      let entries ← members.mapM fun m => (value.ofJson m.2).map (m.1, ·)
      return NameMap.ofList entries
    | other => .error (.wrongType other.found "a map")
  | .pair first second, json => do
    let items ← json.asItems pairDescription
    match items with
    | [] => .error (.wrongLength 0 pairDescription)
    | [a] => do
      let _ ← first.ofJson a
      .error (.wrongLength 1 pairDescription)
    | a :: b :: rest => do
      let x ← first.ofJson a
      let y ← second.ofJson b
      noneLeft items.length rest
      return (x, y)
  | .record title closed fields, json =>
    match json with
    | .array items => do
      let (values, rest) ← fields.ofItems (recordItemsDescription title fields.size) 0 items
      noneLeft items.length rest
      return values
    | .object members => do
      let draft ← members.foldlM
        (fun (draft : fields.Draft) (m : String × Json) =>
          match fields.ofMember m.1 m.2 draft with
          | some outcome => outcome
          | none => if closed then .error (.unknownField m.1 fields.allNames) else .ok draft)
        fields.blank
      (fields.finish draft).mapError .missingField
    | other => .error (.wrongType other.found (recordDescription title))

/-- Reads a member of an object into a draft, if a field has its name. -/
def Layout.ofMember : (fields : Layout) → String → Json → fields.Draft →
    Option (Except Mismatch fields.Draft)
  | .nil, _, _, _ => none
  | .field name aliases _ shape rest, key, json, (value, others) =>
    if key = name || aliases.contains key then
      some (
        if value.isSome then .error (.repeatedField name)
        else (shape.ofJson json).map fun x => (some x, others))
    else (rest.ofMember key json others).map fun outcome => outcome.map fun r => (value, r)

/-- Reads fields from the items of an array; also the items that are left. -/
def Layout.ofItems : (fields : Layout) → (expected : String) → (index : Nat) → List Json →
    Except Mismatch (fields.Carrier × List Json)
  | .nil, _, _, items => .ok ((), items)
  | .field _ _ presence shape rest, expected, index, json :: items => do
    let x ← shape.ofJson json
    let (others, items) ← rest.ofItems expected (index + 1) items
    return ((Layout.present x presence, others), items)
  | .field _ _ presence _ rest, expected, index, [] =>
    match Layout.omitted presence with
    | some value => do
      let (others, items) ← rest.ofItems expected (index + 1) []
      return ((value, others), items)
    | none => .error (.wrongLength index expected)

end

end Rollout
