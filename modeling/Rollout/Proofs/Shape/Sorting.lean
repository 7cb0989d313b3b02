import Rollout.Json.Sorted
import Rollout.Proofs.Shape.RoundTrip

/-!
# Written values with sorted members

Sorting brings the members of objects into another order and does nothing else.  As every field of a
record is found by its name, a value is read back from what was written for it after that was
sorted, too (`Shape.ofJson_sorted_toJson`).
-/

namespace Rollout

open Json (ok_bind)

/-! ### Tables from entries of different names -/

namespace NameMap

variable {α : Type} {name : String} {value : α} {list : List (String × α)}

theorem perm_insertEntry (h : ∀ e ∈ list, e.1 ≠ name) :
    (insertEntry name value list).Perm ((name, value) :: list) := by
  induction list with
  | nil => exact .refl _
  | cons entry rest ih =>
    obtain ⟨hentry, hrest⟩ := List.forall_mem_cons.1 h
    unfold insertEntry
    split
    · exact .refl _
    · rw [if_neg (Ne.symm hentry)]
      exact ((ih hrest).cons entry).trans (.swap _ _ _)

theorem perm_insertAll {table : NameMap α} (h : ((table.entries ++ list).map Prod.fst).Nodup) :
    (table.insertAll list).entries.Perm (table.entries ++ list) := by
  induction list generalizing table with
  | nil =>
    rw [List.append_nil]
    exact .refl _
  | cons entry rest ih =>
    have hnew : ∀ e ∈ table.entries, e.1 ≠ entry.1 := by
      rw [List.map_append, List.nodup_append] at h
      exact fun e he => h.2.2 e.1 (List.mem_map_of_mem he) entry.1 List.mem_cons_self
    have hinsert : (table.insert entry.1 entry.2).entries.Perm (entry :: table.entries) :=
      perm_insertEntry hnew
    have hall : ((table.insert entry.1 entry.2).entries ++ rest).Perm
        (table.entries ++ entry :: rest) := (hinsert.append_right rest).trans List.perm_middle.symm
    exact (ih ((hall.map Prod.fst).nodup_iff.2 h)).trans hall

/-- Entries of different names are all kept. -/
theorem perm_ofList (h : (list.map Prod.fst).Nodup) : (ofList list).entries.Perm list :=
  perm_insertAll h

theorem mem_of_mem_insertAll {table : NameMap α} {e : String × α}
    (h : e ∈ (table.insertAll list).entries) : e ∈ table.entries ∨ e ∈ list := by
  induction list generalizing table with
  | nil => exact .inl h
  | cons entry rest ih =>
    rcases ih h with hinsert | hrest
    · rcases mem_insertEntry hinsert with rfl | hmem
      · exact .inr List.mem_cons_self
      · exact .inl hmem
    · exact .inr (List.mem_cons_of_mem _ hrest)

theorem mem_of_mem_ofList {e : String × α} (h : e ∈ (ofList list).entries) : e ∈ list :=
  (mem_of_mem_insertAll h).resolve_left List.not_mem_nil

end NameMap

/-! ### Sorted values -/

namespace Json

theorem sortedItems_eq_map (items : List Json) : sortedItems items = items.map sorted := by
  induction items with
  | nil => rfl
  | cons item rest ih => rw [sortedItems, ih, List.map_cons]

theorem sortedMembers_eq_map (members : List (String × Json)) :
    sortedMembers members = members.map fun m => (m.1, m.2.sorted) := by
  induction members with
  | nil => rfl
  | cons m rest ih => rw [sortedMembers, ih, List.map_cons]

theorem names_sortedMembers (members : List (String × Json)) :
    (sortedMembers members).map Prod.fst = members.map Prod.fst := by
  rw [sortedMembers_eq_map, List.map_map]
  rfl

theorem sorted_ne_null {json : Json} (h : json ≠ .null) : json.sorted ≠ .null := by
  cases json with
  | null => exact absurd rfl h
  | _ => rw [sorted] <;> nofun

mutual

theorem whole_sorted : (json : Json) → json.Whole → json.sorted.Whole
  | null, h => h
  | bool _, h => h
  | number _, h => h
  | string _, h => h
  | array items, h => by
    rw [Whole] at h
    rw [sorted, Whole]
    exact wholeItems_sorted items h
  | object members, h => by
    rw [Whole] at h
    rw [sorted, Whole, wholeMembers_iff]
    have hsorted := wholeMembers_iff.1 (wholeMembers_sorted members h)
    exact fun m hm => hsorted m (NameMap.mem_of_mem_ofList hm)

theorem wholeItems_sorted : (items : List Json) → WholeItems items → WholeItems (sortedItems items)
  | [], h => h
  | item :: rest, h => ⟨whole_sorted item h.1, wholeItems_sorted rest h.2⟩

theorem wholeMembers_sorted : (members : List (String × Json)) → WholeMembers members →
    WholeMembers (sortedMembers members)
  | [], h => h
  | (_, value) :: rest, h => ⟨whole_sorted value h.1, wholeMembers_sorted rest h.2⟩

end

/-- The members of an object with different names are the same ones after they were sorted. -/
theorem perm_sorted {members : List (String × Json)} (h : (members.map Prod.fst).Nodup) :
    (NameMap.ofList (sortedMembers members)).entries.Perm
      (members.map fun m => (m.1, m.2.sorted)) := by
  rw [← sortedMembers_eq_map]
  exact NameMap.perm_ofList (by rwa [names_sortedMembers])

end Json

/-! ### Records -/

namespace Layout

/-- The order of the members of an object plays no role for the fields of a record. -/
theorem Filled.of_perm {members members' : List (String × Json)} (hperm : members.Perm members') :
    (fields : Layout) → {draft draft' : fields.Draft} → fields.Filled members draft draft' →
      fields.Filled members' draft draft'
  | .nil, _, _, h => h
  | .field name aliases presence shape rest, (value, others), (value', others'), h => by
    rw [Filled] at h ⊢
    refine ⟨?_, of_perm hperm rest h.2⟩
    have hvalues : (Json.valuesOf (name :: aliases) members).Perm
        (Json.valuesOf (name :: aliases) members') := (hperm.filter _).map _
    generalize Json.valuesOf (name :: aliases) members = given at h hvalues
    cases h.1 with
    | kept =>
      rw [hvalues.symm.eq_nil]
      exact .kept
    | given hx =>
      rw [hvalues.symm.eq_singleton]
      exact .given hx

theorem ReadBack.of_perm {fields : Layout} {members members' : List (String × Json)}
    {values : fields.Carrier} (h : fields.ReadBack members values)
    (hperm : members.Perm members') : fields.ReadBack members' values :=
  ⟨Filled.of_perm hperm fields h.filled, fun m hm => h.named m (hperm.mem_iff.2 hm)⟩

end Layout

/-! ### All shapes -/

mutual

/-- Reading what was written for a value and then sorted gives the value. -/
theorem Shape.ofJson_sorted_toJson : (shape : Shape) → (x : shape.Carrier) → shape.Faithful x →
    shape.ofJson (shape.toJson x).sorted = .ok x
  | .text, s, h => Shape.ofJson_toJson .text s h
  | .path, s, h => Shape.ofJson_toJson .path s h
  | .int64, n, h => Shape.ofJson_toJson .int64 n h
  | .uint64, n, h => Shape.ofJson_toJson .uint64 n h
  | .uint32, n, h => Shape.ofJson_toJson .uint32 n h
  | .flag, b, h => Shape.ofJson_toJson .flag b h
  | .time, t, h => Shape.ofJson_toJson .time t h
  | .choice names, i, h => Shape.ofJson_toJson (.choice names) i h
  | .optional inner, none, h => by rw [Shape.toJson, Json.sorted, Shape.ofJson] <;> nofun
  | .optional inner, some x, h => by
    rw [Shape.Faithful] at h
    obtain ⟨hnull, hx⟩ := h x rfl
    rw [Shape.toJson, Shape.ofJson, inner.ofJson_sorted_toJson x hx]
    · rfl
    · exact Json.sorted_ne_null hnull
  | .sequence item, xs, h => by
    rw [Shape.Faithful] at h
    rw [Shape.toJson, Json.sorted, Json.sortedItems_eq_map, List.map_map, Shape.ofJson,
      Json.asItems, ok_bind]
    exact mapM_map_ok fun x hx => item.ofJson_sorted_toJson x (h x hx)
  | .nameSet, set, h => by
    have hsame : (Shape.nameSet.toJson set).sorted = Shape.nameSet.toJson set := by
      rw [Shape.toJson, Json.sorted, Json.sortedItems_eq_map, List.map_map]
      rfl
    rw [hsame]
    exact Shape.ofJson_toJson .nameSet set h
  | .table value, table, h => by
    rw [Shape.Faithful] at h
    -- the entries of a table are sorted already
    have hsorted : NameMap.ofList (Json.sortedMembers (table.entries.map fun e =>
        (e.1, value.toJson e.2))) = table.mapValues fun _ x => (value.toJson x).sorted := by
      rw [Json.sortedMembers_eq_map, List.map_map]
      exact NameMap.ofList_entries (table.mapValues fun _ x => (value.toJson x).sorted)
    have hentries : (table.mapValues fun _ x => (value.toJson x).sorted).entries.mapM
        (fun m => (value.ofJson m.2).map (m.1, ·)) = .ok table.entries :=
      mapM_map_ok fun e he => by
        dsimp only
        rw [value.ofJson_sorted_toJson e.2 (h e he)]
        rfl
    rw [Shape.toJson, Json.sorted, hsorted, Shape.ofJson, hentries, ok_bind, table.ofList_entries]
    rfl
  | .pair first second, (a, b), h => by
    rw [Shape.Faithful] at h
    rw [Shape.toJson, Json.sorted, Json.sortedItems_eq_map, List.map_cons, List.map_singleton,
      Shape.ofJson, Json.asItems, ok_bind]
    dsimp only
    rw [first.ofJson_sorted_toJson a h.1, ok_bind, second.ofJson_sorted_toJson b h.2, ok_bind]
    rfl
  | .record title closed fields, values, h => by
    rw [Shape.Faithful] at h
    have hnames := h.1.sublist (fields.sublist_toMembers values)
    rw [Shape.toJson, Json.sorted]
    refine Shape.ofJson_record title closed h.1 ?_
    exact (fields.readBack_sorted values h.1 h.2).of_perm (Json.perm_sorted hnames).symm

/-- The members that were written for some values tell them with their own members sorted, too. -/
theorem Layout.readBack_sorted : (fields : Layout) → (values : fields.Carrier) →
    fields.allNames.Nodup → fields.Faithful values →
    fields.ReadBack ((fields.toMembers values).map fun m => (m.1, m.2.sorted)) values
  | .nil, (), _, _ => Layout.readBack_nil
  | .field name aliases .required shape rest, (value, others), hnames, h => by
    rw [Layout.Faithful] at h
    rw [Layout.toMembers, List.map_cons]
    have hrest : rest.allNames.Nodup := (List.nodup_append.1 hnames).2.1
    exact Layout.ReadBack.required hnames (shape.ofJson_sorted_toJson value h.1)
      (rest.readBack_sorted others hrest h.2)
  | .field name aliases .omittable shape rest, (none, others), hnames, h => by
    rw [Layout.Faithful] at h
    rw [Layout.toMembers]
    have hrest : rest.allNames.Nodup := (List.nodup_append.1 hnames).2.1
    exact Layout.ReadBack.omitted hnames (rest.readBack_sorted others hrest h.2)
  | .field name aliases .omittable shape rest, (some value, others), hnames, h => by
    rw [Layout.Faithful] at h
    rw [Layout.toMembers, List.map_cons]
    have hrest : rest.allNames.Nodup := (List.nodup_append.1 hnames).2.1
    exact Layout.ReadBack.present hnames (shape.ofJson_sorted_toJson value (h.1 value rfl))
      (rest.readBack_sorted others hrest h.2)

end

theorem Shaped.ofJson_sorted_toJson {α : Type} [Shaped α] {a : α}
    (h : (shape α).Faithful (toCarrier a)) : ofJson (toJson a).sorted = .ok a := by
  rw [ofJson, toJson, (shape α).ofJson_sorted_toJson _ h]
  exact congrArg Except.ok (ofCarrier_toCarrier a)

end Rollout
