import Mathlib.Data.List.Nodup
import Rollout.Proofs.Shape.Agreement

/-!
# The fields of a record written as an object

The members of an object are taken up one after another, yet what comes of them is a matter of each
field for itself: there is at most one member with a name of the field, and its value, if there is
one, has the shape of the field (`Layout.foldlM_take`).  So neither the order of the members nor the
choice among the names of a field plays a role.
-/

namespace Rollout

/-- The values of those members that have one of some names. -/
def Json.valuesOf (names : List String) (members : List (String × Json)) : List Json :=
  (members.filter fun m => names.contains m.1).map Prod.snd

section Values

variable {names : List String} {name : String} {json : Json} {members : List (String × Json)}

theorem Json.valuesOf_cons_of_mem (h : name ∈ names) :
    Json.valuesOf names ((name, json) :: members) = json :: Json.valuesOf names members := by
  simp [Json.valuesOf, h]

theorem Json.valuesOf_cons_of_not_mem (h : name ∉ names) :
    Json.valuesOf names ((name, json) :: members) = Json.valuesOf names members := by
  simp [Json.valuesOf, h]

theorem Json.valuesOf_eq_nil (h : ∀ m ∈ members, m.1 ∉ names) :
    Json.valuesOf names members = [] := by
  simpa [Json.valuesOf] using h

end Values

/-- Whether the values given for a field lead from what is known of it to what is known then: one
value may be given, if none is known yet. -/
inductive Shape.Fills (shape : Shape) :
    Option shape.Carrier → List Json → Option shape.Carrier → Prop
  | kept {value : Option shape.Carrier} : Fills shape value [] value
  | given {json : Json} {x : shape.Carrier} (h : shape.ofJson json = .ok x) :
    Fills shape none [json] (some x)

theorem Shape.fills_cons {shape : Shape} {value value' : Option shape.Carrier} {json : Json}
    {values : List Json} :
    shape.Fills value (json :: values) value' ↔
      value = none ∧ ∃ x, shape.ofJson json = .ok x ∧ shape.Fills (some x) values value' := by
  constructor
  · intro h
    cases h with
    | given h => exact ⟨rfl, _, h, .kept⟩
  · rintro ⟨rfl, x, hx, h⟩
    cases h with
    | kept => exact .given hx

/-- Values fill a field of which nothing is known exactly if there is at most one, of its shape. -/
theorem Shape.exists_fills_iff {shape : Shape} {values : List Json} :
    (∃ value?, shape.Fills none values value?) ↔
      values.length ≤ 1 ∧ ∀ json ∈ values, ∃ x, shape.ofJson json = .ok x := by
  match values with
  | [] => exact iff_of_true ⟨none, .kept⟩ ⟨Nat.zero_le 1, List.forall_mem_nil _⟩
  | [json] =>
    rw [List.forall_mem_singleton]
    constructor
    · rintro ⟨_, h⟩
      cases h with
      | given h => exact ⟨Nat.le_refl 1, _, h⟩
    · rintro ⟨-, x, h⟩
      exact ⟨some x, .given h⟩
  | json :: json' :: more =>
    refine iff_of_false ?_ fun h => absurd h.1 (by simp)
    rintro ⟨_, h⟩
    cases h

namespace Layout

/-- Whether the members of an object lead from one draft to another, each field for itself. -/
def Filled : (fields : Layout) → List (String × Json) → fields.Draft → fields.Draft → Prop
  | .nil, _, (), () => True
  | .field name aliases _ shape rest, members, (value, others), (value', others') =>
    shape.Fills value (Json.valuesOf (name :: aliases) members) value' ∧
      rest.Filled members others others'

theorem filled_nil : (fields : Layout) → {draft draft' : fields.Draft} →
    (fields.Filled [] draft draft' ↔ draft' = draft)
  | .nil, (), () => iff_of_true trivial rfl
  | .field name aliases presence shape rest, (value, others), (value', others') => by
    rw [Filled, filled_nil rest, Prod.mk.injEq]
    refine and_congr ⟨fun h => ?_, fun h => ?_⟩ Iff.rfl
    · cases h with
      | kept => rfl
    · rw [h]
      exact .kept

section Member

variable {key : String} {json : Json} {members : List (String × Json)}

theorem filled_cons_of_not_mem : (fields : Layout) → key ∉ fields.allNames →
    {draft draft' : fields.Draft} →
    (fields.Filled ((key, json) :: members) draft draft' ↔ fields.Filled members draft draft')
  | .nil, _, (), () => Iff.rfl
  | .field name aliases presence shape rest, h, (value, others), (value', others') => by
    rw [allNames, List.mem_append, not_or] at h
    rw [Filled, Filled, Json.valuesOf_cons_of_not_mem h.1, filled_cons_of_not_mem rest h.2]

theorem ofMember_eq_none : (fields : Layout) → {draft : fields.Draft} →
    (fields.ofMember key json draft = none ↔ key ∉ fields.allNames)
  | .nil, () => iff_of_true rfl List.not_mem_nil
  | .field name aliases presence shape rest, (value, others) => by
    rw [ofMember, allNames, List.mem_append, not_or]
    by_cases hkey : (key = name || aliases.contains key) = true
    · have hmem : key ∈ name :: aliases := by simpa using hkey
      rw [if_pos hkey]
      exact iff_of_false (Option.some_ne_none _) fun h => h.1 hmem
    · have hmem : key ∉ name :: aliases := by simpa using hkey
      rw [if_neg hkey, Option.map_eq_none_iff, ofMember_eq_none rest]
      exact ⟨fun h => ⟨hmem, h⟩, And.right⟩

/-- Taking up a member that a field knows is filling the fields with it. -/
theorem ofMember_step : (fields : Layout) → fields.allNames.Nodup → key ∈ fields.allNames →
    {draft draft' : fields.Draft} →
    ((∃ middle, fields.ofMember key json draft = some (.ok middle) ∧
        fields.Filled members middle draft') ↔
      fields.Filled ((key, json) :: members) draft draft')
  | .nil, _, h, _, _ => absurd h List.not_mem_nil
  | .field name aliases presence shape rest, hnames, h, (value, others), (value', others') => by
    obtain ⟨-, hrest, hdisjoint⟩ := List.nodup_append.1 hnames
    rw [Filled, ofMember]
    by_cases hkey : (key = name || aliases.contains key) = true
    · -- the name is one of this field, so none of a later one
      have hmem : key ∈ name :: aliases := by simpa using hkey
      have hlater : key ∉ rest.allNames := fun hkey' => hdisjoint key hmem key hkey' rfl
      rw [if_pos hkey, Json.valuesOf_cons_of_mem hmem, filled_cons_of_not_mem rest hlater,
        Shape.fills_cons]
      cases value with
      | some x =>
        refine iff_of_false ?_ fun hfills => Option.some_ne_none x hfills.1.1
        rintro ⟨middle, hmiddle, -⟩
        cases Option.some.inj hmiddle
      | none =>
        constructor
        · rintro ⟨middle, hmiddle, hfilled⟩
          obtain ⟨x, hx, rfl⟩ := Json.map_eq_ok.1 (Option.some.inj hmiddle)
          exact ⟨⟨rfl, x, hx, hfilled.1⟩, hfilled.2⟩
        · rintro ⟨⟨-, x, hx, hfills⟩, hfilled⟩
          refine ⟨(some x, others), ?_, hfills, hfilled⟩
          rw [hx]
          rfl
    · have hmem : key ∉ name :: aliases := by simpa using hkey
      have hlater : key ∈ rest.allNames := (List.mem_append.1 h).resolve_left hmem
      rw [if_neg hkey, Json.valuesOf_cons_of_not_mem hmem, ← ofMember_step rest hrest hlater]
      constructor
      · rintro ⟨middle, hmiddle, hfilled⟩
        obtain ⟨outcome, hothers, hmap⟩ := Option.map_eq_some_iff.1 hmiddle
        obtain ⟨others₁, rfl, rfl⟩ := Json.map_eq_ok.1 hmap
        exact ⟨hfilled.1, others₁, hothers, hfilled.2⟩
      · rintro ⟨hfills, others₁, hothers, hfilled⟩
        refine ⟨(value, others₁), ?_, hfills, hfilled⟩
        rw [hothers]
        rfl

theorem take_step {fields : Layout} (hnames : fields.allNames.Nodup) (closed : Bool)
    {draft draft' : fields.Draft} :
    (∃ middle, fields.take closed draft (key, json) = .ok middle ∧
        fields.Filled members middle draft') ↔
      fields.Filled ((key, json) :: members) draft draft' ∧
        (closed = true → key ∈ fields.allNames) := by
  unfold take
  by_cases hkey : key ∈ fields.allNames
  · rw [← ofMember_step fields hnames hkey]
    cases hof : fields.ofMember key json draft with
    | none => exact absurd hkey ((ofMember_eq_none fields).1 hof)
    | some outcome => simp [hkey]
  · have hof : fields.ofMember key json draft = none := (ofMember_eq_none fields).2 hkey
    rw [filled_cons_of_not_mem fields hkey]
    dsimp only
    rw [hof]
    cases closed with
    | true => simp [hkey]
    | false => simp

end Member

/-- What comes of all members is a matter of each field for itself. -/
theorem foldlM_take {fields : Layout} (hnames : fields.allNames.Nodup) (closed : Bool)
    {members : List (String × Json)} {draft draft' : fields.Draft} :
    members.foldlM (fields.take closed) draft = .ok draft' ↔
      fields.Filled members draft draft' ∧
        (closed = true → ∀ m ∈ members, m.1 ∈ fields.allNames) := by
  induction members generalizing draft with
  | nil =>
    rw [filled_nil, List.foldlM_nil]
    simp [eq_comm, pure, Except.pure]
  | cons m members ih =>
    obtain ⟨key, json⟩ := m
    rw [List.foldlM_cons, Json.bind_eq_ok]
    simp only [ih, List.forall_mem_cons]
    constructor
    · rintro ⟨middle, htake, hfilled, hknown⟩
      obtain ⟨hstep, hkey⟩ := (take_step hnames closed).1 ⟨middle, htake, hfilled⟩
      exact ⟨hstep, fun h => ⟨hkey h, hknown h⟩⟩
    · rintro ⟨hfilled, hknown⟩
      obtain ⟨middle, htake, hrest⟩ :=
        (take_step hnames closed).2 ⟨hfilled, fun h => (hknown h).1⟩
      exact ⟨middle, htake, hrest, fun h => (hknown h).2⟩

/-! ### Completed drafts -/

/-- What is known of the fields of which the values are known. -/
def known : (fields : Layout) → fields.Carrier → fields.Draft
  | .nil, () => ()
  | .field _ _ .required _ rest, (value, others) => (some value, rest.known others)
  | .field _ _ .omittable _ rest, (value, others) => (value, rest.known others)

theorem finish_known : (fields : Layout) → (values : fields.Carrier) →
    fields.finish (fields.known values) = .ok values
  | .nil, () => rfl
  | .field _ _ .required _ rest, (value, others) => by
    rw [known, finish, finish_known rest others]
    rfl
  | .field _ _ .omittable _ rest, (none, others) => by
    rw [known, finish, finish_known rest others]
    rfl
  | .field _ _ .omittable _ rest, (some value, others) => by
    rw [known, finish, finish_known rest others]
    rfl

/-! ### Arrays -/

/-- Whether all fields may be left out. -/
def AllOmittable : Layout → Prop
  | .nil => True
  | .field _ _ presence _ rest => presence = .omittable ∧ rest.AllOmittable

/-- Whether the items of an array make a draft: a field has the item at its position, which is
counted from `index` on. -/
def FilledInOrder : (fields : Layout) → (index : Nat) → List Json → fields.Draft → Prop
  | .nil, _, _, () => True
  | .field _ _ _ shape rest, index, items, (value, others) =>
    shape.Fills none items[index]?.toList value ∧ rest.FilledInOrder (index + 1) items others

theorem ofItems_iff (expected : String) (items left : List Json) : (fields : Layout) →
    fields.AllOmittable → (index : Nat) → (values : fields.Carrier) →
    (fields.ofItems expected index (items.drop index) = .ok (values, left) ↔
      fields.FilledInOrder index items (fields.known values) ∧
        left = items.drop (index + fields.size))
  | .nil, _, index, () => by
    simp [ofItems, FilledInOrder, size, eq_comm]
  | .field name aliases presence shape rest, h, index, values => by
    obtain ⟨rfl, hrest⟩ := h
    obtain ⟨value?, others⟩ := values
    have ih := ofItems_iff expected items left rest hrest (index + 1) others
    rw [known, FilledInOrder, and_assoc, size, ← Nat.add_assoc, Nat.add_right_comm, ← ih,
      ← List.head?_drop, ← List.tail_drop]
    cases items.drop index with
    | nil =>
      rw [ofItems, omitted]
      dsimp only [List.head?_nil, Option.toList_none, List.tail_nil]
      constructor
      · intro hok
        obtain ⟨r, hr, heq⟩ := Json.bind_eq_ok.1 hok
        cases heq
        exact ⟨.kept, hr⟩
      · rintro ⟨hvalue, hothers⟩
        cases hvalue with
        | kept =>
          rw [hothers]
          rfl
    | cons json items =>
      rw [ofItems]
      dsimp only [List.head?_cons, Option.toList_some, List.tail_cons]
      constructor
      · intro hok
        obtain ⟨x, hx, hlater⟩ := Json.bind_eq_ok.1 hok
        obtain ⟨r, hr, heq⟩ := Json.bind_eq_ok.1 hlater
        cases heq
        exact ⟨.given hx, hr⟩
      · rintro ⟨hvalue, hothers⟩
        cases hvalue with
        | given hx =>
          rw [hx, Json.ok_bind, hothers]
          rfl

end Layout

end Rollout
