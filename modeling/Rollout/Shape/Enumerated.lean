import Rollout.Shape.Basic

/-!
# Types that are written as one of a list of names

An `Enumerated` type has finitely many values in a fixed order, each with a written name; its shape
is the choice among those names.
-/

namespace Rollout

/-- A type with finitely many named values. -/
class Enumerated (α : Type) where
  all : List α
  name : α → String
  index : α → Fin all.length
  /-- Each value stands at its position. -/
  get_index : ∀ a, all.get (index a) = a

namespace Enumerated

variable (α : Type) [Enumerated α]

def names : List String := (all : List α).map name

@[reducible] def shape : Shape := .choice (names α)

variable {α}

def ofIndex (i : Fin (names α).length) : α := (all : List α).get (i.cast (by simp [names]))

def toIndex (a : α) : Fin (names α).length := (index a).cast (by simp [names])

@[simp] theorem ofIndex_toIndex (a : α) : ofIndex (toIndex a) = a := by
  simp only [ofIndex, toIndex]
  exact get_index a

def ofName? (text : String) : Option α := (all : List α).find? fun a => name a = text

end Enumerated
end Rollout
