import Rollout.Proofs.Json.Reading
import Rollout.Shape.Tree

/-!
# The JSON values of a shape

For the shapes of texts, numbers, lists and tables of texts: which JSON values are read, and as
what.  Such a value is told from what is read, except for tables, of whose entries the last one of a
name counts.
-/

namespace Rollout

variable {json : Json}

theorem Shape.ofJson_text {s : String} : Shape.text.ofJson json = .ok s ↔ json = .string s := by
  rw [Shape.ofJson]
  cases json <;> simp [Json.asText]

theorem Shape.ofJson_optional_text {text : Option String} :
    (Shape.optional .text).ofJson json = .ok text ↔ json = text.elim .null .string := by
  rw [Shape.ofJson.eq_def]
  cases json with
  | null => cases text <;> simp
  | string s => cases text <;> simp [Shape.ofJson, Json.asText, Except.map]
  | _ => cases text <;> simp [Shape.ofJson, Json.asText, Except.map]

theorem Json.Number.toInt64_eq_ok {n : Json.Number} {x : Int64} :
    n.toInt64 = .ok x ↔ n = .int x.toInt := by
  cases n with
  | float y => exact iff_of_false nofun nofun
  | int i =>
    rw [toInt64, Json.Number.int.injEq]
    constructor
    · intro h
      split at h
      · rename_i hrange
        cases h
        exact (Int64.toInt_ofInt_of_le hrange.1 (Int.lt_of_le_of_lt hrange.2 (by decide))).symm
      · cases h
    · rintro rfl
      rw [if_pos ⟨x.minValue_le_toInt, x.toInt_le⟩, Int64.ofInt_toInt]

theorem Json.Number.toUInt64_eq_ok {n : Json.Number} {x : UInt64} :
    n.toUInt64 = .ok x ↔ n = .int x.toNat := by
  cases n with
  | float y => exact iff_of_false nofun nofun
  | int i =>
    rw [toUInt64, Json.Number.int.injEq]
    constructor
    · intro h
      split at h
      · rename_i hrange
        cases h
        have hsize : i.toNat < UInt64.size := (Int.toNat_lt hrange.1).2 hrange.2
        rw [UInt64.toNat_ofNat_of_lt' hsize, Int.toNat_of_nonneg hrange.1]
      · cases h
    · rintro rfl
      rw [if_pos ⟨Int.natCast_nonneg _, Int.ofNat_lt.2 x.toNat_lt_size⟩, Int.toNat_natCast,
        UInt64.ofNat_toNat]

theorem Shape.ofJson_int64 {x : Int64} : Shape.int64.ofJson json = .ok x ↔ json = .int x.toInt := by
  rw [Shape.ofJson, Json.int]
  cases json <;> simp [Json.asInteger, Json.Number.toInt64_eq_ok]

theorem Shape.ofJson_uint64 {x : UInt64} :
    Shape.uint64.ofJson json = .ok x ↔ json = .int x.toNat := by
  rw [Shape.ofJson, Json.int]
  cases json <;> simp [Json.asInteger, Json.Number.toUInt64_eq_ok]

theorem mapM_map_ok {ε α β : Type} {f : α → β} {g : β → Except ε α} {xs : List α}
    (h : ∀ x ∈ xs, g (f x) = .ok x) : (xs.map f).mapM g = .ok xs := by
  induction xs with
  | nil => rfl
  | cons x xs ih =>
    obtain ⟨hx, hxs⟩ := List.forall_mem_cons.1 h
    rw [List.map_cons, List.mapM_cons, hx, Json.ok_bind, ih hxs]
    rfl

/-- A list whose items are told from what is made of them is told from the list of these. -/
theorem mapM_eq_ok {ε α β : Type} {f : α → Except ε β} {g : β → α}
    (h : ∀ x y, f x = .ok y ↔ x = g y) {xs : List α} {ys : List β} :
    xs.mapM f = .ok ys ↔ xs = ys.map g := by
  constructor
  · intro hok
    induction xs generalizing ys with
    | nil =>
      cases hok
      rfl
    | cons x xs ih =>
      rw [List.mapM_cons] at hok
      obtain ⟨y, hy, hrest⟩ := Json.bind_eq_ok.1 hok
      obtain ⟨ys', hys', heq⟩ := Json.bind_eq_ok.1 hrest
      cases heq
      rw [List.map_cons, (h x y).1 hy, ih hys']
  · rintro rfl
    exact mapM_map_ok fun y _ => (h (g y) y).2 rfl

theorem Shape.ofJson_texts {texts : List String} :
    (Shape.sequence .text).ofJson json = .ok texts ↔ json = .array (texts.map .string) := by
  rw [Shape.ofJson]
  cases json with
  | array items =>
    rw [Json.asItems, Json.ok_bind, Json.array.injEq]
    exact mapM_eq_ok fun _ _ => Shape.ofJson_text
  | _ => exact iff_of_false nofun nofun

/-- A table of texts is written as entries one after another, of which the last of a name counts. -/
theorem Shape.ofJson_table {table : NameMap String} :
    (Shape.table .text).ofJson json = .ok table ↔ ∃ entries : List (String × String),
      json = .object (entries.map fun e => (e.1, .string e.2)) ∧
        NameMap.ofList entries = table := by
  rw [Shape.ofJson.eq_def]
  cases json with
  | object members =>
    have hentry (m : String × Json) (e : String × String) :
        (Shape.text.ofJson m.2).map (m.1, ·) = .ok e ↔ m = (e.1, .string e.2) := by
      rw [Json.map_eq_ok]
      constructor
      · rintro ⟨s, hs, rfl⟩
        exact Prod.ext rfl (Shape.ofJson_text.1 hs)
      · rintro rfl
        exact ⟨e.2, rfl, rfl⟩
    dsimp only
    rw [Json.bind_eq_ok]
    refine exists_congr fun entries => and_congr ?_ ?_
    · rw [mapM_eq_ok hentry, Json.object.injEq]
    · simp [pure, Except.pure]
  | _ => exact iff_of_false nofun nofun

end Rollout
