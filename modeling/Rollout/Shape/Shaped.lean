import Rollout.Json.Reader
import Rollout.Scope
import Rollout.Shape.Enumerated
import Rollout.Shape.Text
import Rollout.Shape.Tree

/-!
# Types with a written form

A `Shaped` type comes with the shape in which its values are written.  `Shaped.toJson` writes a
value; `Shaped.parse` and `Shaped.ofJson` read one from JSON text and from a JSON value.
-/

namespace Rollout

/-- A type whose values are written in a shape. -/
class Shaped (α : Type) where
  shape : Shape
  toCarrier : α → shape.Carrier
  ofCarrier : shape.Carrier → α
  /-- Nothing is lost on the way. -/
  ofCarrier_toCarrier : ∀ a, ofCarrier (toCarrier a) = a

namespace Shaped

variable {α : Type} [Shaped α]

def toJson (a : α) : Json := (shape α).toJson (toCarrier a)

def toText (a : α) : String := (toJson a).compact

def ofJson (json : Json) : Except Mismatch α := ((shape α).ofJson json).map ofCarrier

def parseSymbols (text : List Text.Symbol) : Except Json.Error α := do
  let (x, c) ← (shape α).read (Json.Cursor.start text)
  Json.endText (ofCarrier x) c

def parse (text : String) : Except Json.Error α := parseSymbols (Text.symbols text)

end Shaped

instance (priority := low) {α : Type} [Enumerated α] : Shaped α where
  shape := Enumerated.shape α
  toCarrier := Enumerated.toIndex
  ofCarrier := Enumerated.ofIndex
  ofCarrier_toCarrier := Enumerated.ofIndex_toIndex

instance : Shaped Scope where
  shape := .text
  toCarrier := Scope.name
  ofCarrier := Scope.mk
  ofCarrier_toCarrier _ := rfl

instance : Shaped String := ⟨.text, id, id, fun _ => rfl⟩

instance : Shaped Int64 := ⟨.int64, id, id, fun _ => rfl⟩

instance : Shaped Calendar.Instant := ⟨.time, id, id, fun _ => rfl⟩

instance {α β : Type} [Shaped α] [Shaped β] : Shaped (α × β) where
  shape := .pair (Shaped.shape α) (Shaped.shape β)
  toCarrier p := (Shaped.toCarrier p.1, Shaped.toCarrier p.2)
  ofCarrier p := (Shaped.ofCarrier p.1, Shaped.ofCarrier p.2)
  ofCarrier_toCarrier _ := Prod.ext (Shaped.ofCarrier_toCarrier _) (Shaped.ofCarrier_toCarrier _)

instance {α : Type} [Shaped α] : Shaped (Option α) where
  shape := .optional (Shaped.shape α)
  toCarrier := Option.map Shaped.toCarrier
  ofCarrier := Option.map Shaped.ofCarrier
  ofCarrier_toCarrier a := by
    cases a with
    | none => rfl
    | some a => exact congrArg some (Shaped.ofCarrier_toCarrier a)

instance {α : Type} [Shaped α] : Shaped (List α) where
  shape := .sequence (Shaped.shape α)
  toCarrier := List.map Shaped.toCarrier
  ofCarrier := List.map Shaped.ofCarrier
  ofCarrier_toCarrier a := by
    rw [List.map_map]
    exact (List.map_congr_left fun x _ => Shaped.ofCarrier_toCarrier x).trans (List.map_id a)

instance {α : Type} [Shaped α] : Shaped (NameMap α) where
  shape := .table (Shaped.shape α)
  toCarrier := NameMap.mapValues fun _ => Shaped.toCarrier
  ofCarrier := NameMap.mapValues fun _ => Shaped.ofCarrier
  ofCarrier_toCarrier := NameMap.mapValues_mapValues_of_inverse fun _ => Shaped.ofCarrier_toCarrier

end Rollout
