import Rollout.Proofs.Json.Writing
import Rollout.Proofs.Shape.Accepted
import Rollout.Proofs.Shape.Fields
import Rollout.Proofs.Text.Utf8

/-!
# Written values are read back

Reading what was written for a value gives that value, for every shape: `Shape.ofJson_toJson` for
the JSON value and `Shaped.parse_toText` for the text.  The values that do not come back are ruled
out by `Shape.Faithful`: times that are not read back, an optional value whose inner value is
written as null, and records two of whose fields share a name.
-/

namespace Rollout

open Json (Cursor Delivers EndsValue Spelled SpelledText ok_bind)

mutual

/-- Whether a value is written in a way from which it can be told. -/
def Shape.Faithful : (shape : Shape) → shape.Carrier → Prop
  | .text, _ => True
  | .path, _ => True
  | .int64, _ => True
  | .uint64, _ => True
  | .uint32, _ => True
  | .flag, _ => True
  | .time, t => Calendar.Instant.parse t.render = .ok t
  | .choice names, _ => names.Nodup
  | .optional inner, value => ∀ x, value = some x → inner.toJson x ≠ .null ∧ inner.Faithful x
  | .sequence item, xs => ∀ x ∈ xs, item.Faithful x
  | .nameSet, _ => True
  | .table value, table => ∀ e ∈ table.entries, value.Faithful e.2
  | .pair first second, (a, b) => first.Faithful a ∧ second.Faithful b
  | .record _ _ fields, values => fields.allNames.Nodup ∧ fields.Faithful values

/-- Whether the values of the fields of a record are written so that they can be told. -/
def Layout.Faithful : (fields : Layout) → fields.Carrier → Prop
  | .nil, () => True
  | .field _ _ .required shape rest, (value, others) => shape.Faithful value ∧ rest.Faithful others
  | .field _ _ .omittable shape rest, (value, others) =>
    (∀ x, value = some x → shape.Faithful x) ∧ rest.Faithful others

end

/-! ### The numbers of a written value -/

/-- No natural number is below the signed 64-bit integers. -/
theorem minValue_le_natCast (n : Nat) : Int64.minValue.toInt ≤ n :=
  Int.le_trans (by decide) (Int.natCast_nonneg n)

theorem whole_int64 (n : Int64) : (Json.int n.toInt).Whole := by
  rw [Json.int, Json.Whole]
  exact ⟨n.minValue_le_toInt, Int.lt_of_le_of_lt n.toInt_le (by decide)⟩

theorem whole_natCast {n : Nat} (h : n < UInt64.size) : (Json.int n).Whole := by
  rw [Json.int, Json.Whole]
  exact ⟨minValue_le_natCast n, Int.ofNat_lt.2 h⟩

theorem Json.wholeItems_iff {items : List Json} :
    Json.WholeItems items ↔ ∀ item ∈ items, item.Whole := by
  induction items with
  | nil => exact iff_of_true trivial (List.forall_mem_nil _)
  | cons item items ih => rw [Json.WholeItems, ih, List.forall_mem_cons]

theorem Json.wholeMembers_iff {members : List (String × Json)} :
    Json.WholeMembers members ↔ ∀ m ∈ members, m.2.Whole := by
  induction members with
  | nil => exact iff_of_true trivial (List.forall_mem_nil _)
  | cons m members ih => rw [Json.WholeMembers, ih, List.forall_mem_cons]

mutual

theorem Shape.whole_toJson : (shape : Shape) → (x : shape.Carrier) → (shape.toJson x).Whole
  | .text, s => by rw [Shape.toJson, Json.Whole]; trivial
  | .path, s => by rw [Shape.toJson, Json.Whole]; trivial
  | .int64, n => by rw [Shape.toJson]; exact whole_int64 n
  | .uint64, n => by rw [Shape.toJson]; exact whole_natCast n.toNat_lt_size
  | .uint32, n => by
    rw [Shape.toJson]
    exact whole_natCast (Nat.lt_trans n.toNat_lt_size (by decide))
  | .flag, b => by rw [Shape.toJson, Json.Whole]; trivial
  | .time, t => by rw [Shape.toJson, Json.Whole]; trivial
  | .choice names, i => by rw [Shape.toJson, Json.Whole]; trivial
  | .optional inner, none => by rw [Shape.toJson, Json.Whole]; trivial
  | .optional inner, some x => by rw [Shape.toJson]; exact inner.whole_toJson x
  | .sequence item, xs => by
    rw [Shape.toJson, Json.Whole, Json.wholeItems_iff]
    exact List.forall_mem_map.2 fun x _ => item.whole_toJson x
  | .nameSet, set => by
    rw [Shape.toJson, Json.Whole, Json.wholeItems_iff]
    exact List.forall_mem_map.2 fun s _ => by rw [Json.Whole]; trivial
  | .table value, table => by
    rw [Shape.toJson, Json.Whole, Json.wholeMembers_iff]
    exact List.forall_mem_map.2 fun e _ => value.whole_toJson e.2
  | .pair first second, (a, b) => by
    rw [Shape.toJson, Json.Whole, Json.wholeItems_iff]
    exact List.forall_mem_cons.2
      ⟨first.whole_toJson a, List.forall_mem_singleton.2 (second.whole_toJson b)⟩
  | .record title closed fields, values => by
    rw [Shape.toJson, Json.Whole]
    exact fields.whole_toMembers values

theorem Layout.whole_toMembers : (fields : Layout) → (values : fields.Carrier) →
    Json.WholeMembers (fields.toMembers values)
  | .nil, () => by rw [Layout.toMembers, Json.WholeMembers]; trivial
  | .field name aliases .required shape rest, (value, others) => by
    rw [Layout.toMembers, Json.WholeMembers]
    exact ⟨shape.whole_toJson value, rest.whole_toMembers others⟩
  | .field name aliases .omittable shape rest, (none, others) => by
    rw [Layout.toMembers]
    exact rest.whole_toMembers others
  | .field name aliases .omittable shape rest, (some value, others) => by
    rw [Layout.toMembers, Json.WholeMembers]
    exact ⟨shape.whole_toJson value, rest.whole_toMembers others⟩

end

theorem Layout.sublist_toMembers : (fields : Layout) → (values : fields.Carrier) →
    ((fields.toMembers values).map Prod.fst).Sublist fields.allNames
  | .nil, () => .slnil
  | .field name aliases .required shape rest, (value, others) => by
    rw [toMembers]
    exact ((rest.sublist_toMembers others).trans (List.sublist_append_right _ _)).cons_cons name
  | .field name aliases .omittable shape rest, (none, others) => by
    rw [toMembers]
    exact (rest.sublist_toMembers others).trans (List.sublist_append_right _ _)
  | .field name aliases .omittable shape rest, (some value, others) => by
    rw [toMembers]
    exact ((rest.sublist_toMembers others).trans (List.sublist_append_right _ _)).cons_cons name

/-! ### Choices -/

theorem chooseName_get {names : List String} (h : names.Nodup) (i : Fin names.length) :
    chooseName names (names.get i) = .ok i := by
  have hindex : names.finIdxOf? (names.get i) = some i := by
    rw [List.finIdxOf?_eq_some_iff]
    refine ⟨rfl, fun j hj heq => ?_⟩
    have hij : j = i := h.injective_get heq
    rw [hij] at hj
    exact absurd hj (Nat.lt_irrefl i.val)
  unfold chooseName
  rw [hindex]

/-! ### Records -/

namespace Layout

/-- Whether some members tell all values of a record. -/
structure ReadBack (fields : Layout) (members : List (String × Json)) (values : fields.Carrier) :
    Prop where
  filled : fields.Filled members fields.blank (fields.known values)
  named : ∀ m ∈ members, m.1 ∈ fields.allNames

theorem readBack_nil : ReadBack .nil [] () := ⟨trivial, List.forall_mem_nil _⟩

section Field

variable {name : String} {aliases : List String} {presence : Presence} {shape : Shape}
  {rest : Layout} {members : List (String × Json)} {others : rest.Carrier}

/-- None of the members of the later fields has a name of the first one. -/
theorem valuesOf_later (hnames : (name :: aliases ++ rest.allNames).Nodup)
    (h : rest.ReadBack members others) : Json.valuesOf (name :: aliases) members = [] :=
  Json.valuesOf_eq_nil fun m hm hmem =>
    (List.nodup_append.1 hnames).2.2 m.1 hmem m.1 (h.named m hm) rfl

theorem ReadBack.skip (h : rest.ReadBack members others) :
    ∀ m ∈ members, m.1 ∈ name :: aliases ++ rest.allNames :=
  fun m hm => List.mem_append_right _ (h.named m hm)

/-- A value that is written for a field fills it. -/
theorem filled_written (hnames : (Layout.field name aliases presence shape rest).allNames.Nodup)
    {json : Json} {x : shape.Carrier} (hx : shape.ofJson json = .ok x)
    (h : rest.ReadBack members others) :
    (Layout.field name aliases presence shape rest).Filled ((name, json) :: members)
      (none, rest.blank) (some x, rest.known others) := by
  have hlater : name ∉ rest.allNames := fun hmem =>
    (List.nodup_append.1 hnames).2.2 name List.mem_cons_self name hmem rfl
  rw [Filled, Json.valuesOf_cons_of_mem List.mem_cons_self, valuesOf_later hnames h,
    filled_cons_of_not_mem rest hlater]
  exact ⟨.given hx, h.filled⟩

theorem named_written {json : Json} (h : rest.ReadBack members others) :
    ∀ m ∈ (name, json) :: members,
      m.1 ∈ (Layout.field name aliases presence shape rest).allNames :=
  List.forall_mem_cons.2 ⟨List.mem_append_left _ List.mem_cons_self, h.skip⟩

theorem ReadBack.required (hnames : (Layout.field name aliases .required shape rest).allNames.Nodup)
    {json : Json} {x : shape.Carrier} (hx : shape.ofJson json = .ok x)
    (h : rest.ReadBack members others) :
    ReadBack (.field name aliases .required shape rest) ((name, json) :: members) (x, others) :=
  ⟨filled_written hnames hx h, named_written h⟩

theorem ReadBack.present (hnames : (Layout.field name aliases .omittable shape rest).allNames.Nodup)
    {json : Json} {x : shape.Carrier} (hx : shape.ofJson json = .ok x)
    (h : rest.ReadBack members others) :
    ReadBack (.field name aliases .omittable shape rest) ((name, json) :: members)
      (some x, others) :=
  ⟨filled_written hnames hx h, named_written h⟩

theorem ReadBack.omitted (hnames : (Layout.field name aliases .omittable shape rest).allNames.Nodup)
    (h : rest.ReadBack members others) :
    ReadBack (.field name aliases .omittable shape rest) members (none, others) := by
  refine ⟨?_, h.skip⟩
  rw [Filled, valuesOf_later hnames h]
  exact ⟨.kept, h.filled⟩

end Field

end Layout

theorem Shape.ofJson_record (title : String) (closed : Bool) {fields : Layout}
    (hnames : fields.allNames.Nodup) {members : List (String × Json)} {values : fields.Carrier}
    (h : fields.ReadBack members values) :
    (Shape.record title closed fields).ofJson (.object members) = .ok values := by
  have hfold := (Layout.foldlM_take hnames closed).2 ⟨h.filled, fun _ => h.named⟩
  rw [Shape.ofJson_object, hfold, ok_bind, fields.finish_known]
  rfl

/-! ### All shapes -/

mutual

/-- Reading what was written for a value gives the value. -/
theorem Shape.ofJson_toJson : (shape : Shape) → (x : shape.Carrier) → shape.Faithful x →
    shape.ofJson (shape.toJson x) = .ok x
  | .text, s, _ => rfl
  | .path, s, _ => rfl
  | .int64, n, _ => Shape.ofJson_int64.2 rfl
  | .uint64, n, _ => Shape.ofJson_uint64.2 rfl
  | .uint32, n, _ => by
    rw [Shape.toJson, Shape.ofJson]
    show Json.Number.toUInt32 (.int n.toNat) = .ok n
    rw [Json.Number.toUInt32, if_pos ⟨Int.natCast_nonneg _, Int.ofNat_lt.2 n.toNat_lt_size⟩,
      Int.toNat_natCast, UInt32.ofNat_toNat]
  | .flag, b, _ => by rw [Shape.toJson, Shape.ofJson]
  | .time, t, h => by
    rw [Shape.Faithful] at h
    rw [Shape.toJson, Shape.ofJson, Json.asText, ok_bind, readTime, h]
    rfl
  | .choice names, i, h => by
    rw [Shape.Faithful] at h
    rw [Shape.toJson, Shape.ofJson, Json.asChoice]
    exact chooseName_get h i
  | .optional inner, none, _ => by rw [Shape.toJson, Shape.ofJson]
  | .optional inner, some x, h => by
    rw [Shape.Faithful] at h
    obtain ⟨hnull, hx⟩ := h x rfl
    rw [Shape.toJson, Shape.ofJson, inner.ofJson_toJson x hx]
    · rfl
    · exact hnull
  | .sequence item, xs, h => by
    rw [Shape.Faithful] at h
    rw [Shape.toJson, Shape.ofJson, Json.asItems, ok_bind]
    exact mapM_map_ok fun x hx => item.ofJson_toJson x (h x hx)
  | .nameSet, set, _ => by
    have hnames : (set.names.map Json.string).mapM (Json.asText "a string") = .ok set.names :=
      mapM_map_ok fun _ _ => rfl
    rw [Shape.toJson, Shape.ofJson, Json.asItems, ok_bind, hnames, ok_bind, set.ofList_names]
    rfl
  | .table value, table, h => by
    rw [Shape.Faithful] at h
    have hentries : (table.entries.map fun e => (e.1, value.toJson e.2)).mapM
        (fun m => (value.ofJson m.2).map (m.1, ·)) = .ok table.entries :=
      mapM_map_ok fun e he => by
        dsimp only
        rw [value.ofJson_toJson e.2 (h e he)]
        rfl
    rw [Shape.toJson, Shape.ofJson, hentries, ok_bind, table.ofList_entries]
    rfl
  | .pair first second, (a, b), h => by
    rw [Shape.Faithful] at h
    rw [Shape.toJson, Shape.ofJson, Json.asItems, ok_bind]
    dsimp only
    rw [first.ofJson_toJson a h.1, ok_bind, second.ofJson_toJson b h.2, ok_bind]
    rfl
  | .record title closed fields, values, h => by
    rw [Shape.Faithful] at h
    rw [Shape.toJson]
    exact Shape.ofJson_record title closed h.1 (fields.readBack values h.1 h.2)

/-- The members that were written for some values tell them. -/
theorem Layout.readBack : (fields : Layout) → (values : fields.Carrier) →
    fields.allNames.Nodup → fields.Faithful values →
    fields.ReadBack (fields.toMembers values) values
  | .nil, (), _, _ => Layout.readBack_nil
  | .field name aliases .required shape rest, (value, others), hnames, h => by
    rw [Layout.Faithful] at h
    rw [Layout.toMembers]
    have hrest : rest.allNames.Nodup := (List.nodup_append.1 hnames).2.1
    exact Layout.ReadBack.required hnames (shape.ofJson_toJson value h.1)
      (rest.readBack others hrest h.2)
  | .field name aliases .omittable shape rest, (none, others), hnames, h => by
    rw [Layout.Faithful] at h
    rw [Layout.toMembers]
    have hrest : rest.allNames.Nodup := (List.nodup_append.1 hnames).2.1
    exact Layout.ReadBack.omitted hnames (rest.readBack others hrest h.2)
  | .field name aliases .omittable shape rest, (some value, others), hnames, h => by
    rw [Layout.Faithful] at h
    rw [Layout.toMembers]
    have hrest : rest.allNames.Nodup := (List.nodup_append.1 hnames).2.1
    exact Layout.ReadBack.present hnames (shape.ofJson_toJson value (h.1 value rfl))
      (rest.readBack others hrest h.2)

end

/-! ### Whole texts -/

theorem Json.spelledText_compact {json : Json} (h : json.Whole) :
    SpelledText json json.compact := by
  refine ⟨[], json.write, [], Json.blank_nil, Json.spelled_write json h, Json.blank_nil, ?_⟩
  rw [Json.compact, String.toList_ofList]
  simp

theorem Json.spelledText_pretty {json : Json} (h : json.Whole) : SpelledText json json.pretty := by
  refine ⟨[], json.writePretty 0, [], Json.blank_nil, Json.spelled_writePretty 0 json h,
    Json.blank_nil, ?_⟩
  rw [Json.pretty, String.toList_ofList]
  simp

namespace Shaped

variable {α : Type} [Shaped α] {a : α}

theorem ofJson_toJson (h : (shape α).Faithful (toCarrier a)) : ofJson (toJson a) = .ok a := by
  rw [ofJson, toJson, (shape α).ofJson_toJson _ h]
  exact congrArg Except.ok (ofCarrier_toCarrier a)

/-- The compact text of a value is read back as the value. -/
theorem parse_toText (h : (shape α).Faithful (toCarrier a)) : parse (toText a) = .ok a :=
  (parse_eq_ok (Json.spelledText_compact ((shape α).whole_toJson _)) a).2 (ofJson_toJson h)

/-- The bytes of the indented text of a value are read back as the value. -/
theorem parseSymbols_decode_encode (h : (shape α).Faithful (toCarrier a)) :
    parseSymbols (Text.decode (Text.encode (toJson a).pretty)) = .ok a := by
  rw [Text.decode_encode]
  exact (parse_eq_ok (Json.spelledText_pretty ((shape α).whole_toJson _)) a).2 (ofJson_toJson h)

end Shaped

end Rollout
