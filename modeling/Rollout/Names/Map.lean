/-!
# Tables keyed by name

`NameMap` is a finite table from names to values, kept as a list in ascending order of the names
(code point order, which is also the order of their UTF-8 bytes).  The order is part of the type, so
two tables with the same look-ups are equal (`NameMap.ext_find?`).  `insert` overwrites, and
`ofList` therefore lets a later entry of one name win.
-/

namespace Rollout

universe u v

/-- A table from names to values, in ascending order of the names. -/
structure NameMap (α : Type u) where
  entries : List (String × α)
  /-- The names ascend strictly, so no name occurs twice. -/
  sorted : entries.Pairwise (fun a b => a.1 < b.1)
  deriving DecidableEq, Repr

namespace NameMap

variable {α : Type u} {β : Type v}

/-! ### Operations -/

def empty : NameMap α := ⟨[], .nil⟩

instance : Inhabited (NameMap α) := ⟨empty⟩

/-- Puts an entry at its place in an ascending list, over an entry of the same name. -/
def insertEntry (name : String) (value : α) : List (String × α) → List (String × α)
  | [] => [(name, value)]
  | entry :: rest =>
    if name < entry.1 then (name, value) :: entry :: rest
    else if name = entry.1 then (name, value) :: rest
    else entry :: insertEntry name value rest

theorem mem_insertEntry {name : String} {value : α} {list : List (String × α)}
    {x : String × α} (h : x ∈ insertEntry name value list) : x = (name, value) ∨ x ∈ list := by
  induction list with
  | nil => simpa [insertEntry] using h
  | cons entry rest ih =>
    unfold insertEntry at h
    split at h
    · simpa using h
    · split at h
      · rcases List.mem_cons.1 h with h | h
        · exact .inl h
        · exact .inr (List.mem_cons_of_mem _ h)
      · rcases List.mem_cons.1 h with h | h
        · exact .inr (h ▸ List.mem_cons_self)
        · exact (ih h).imp id (List.mem_cons_of_mem _)

theorem name_lt_of_not {a b : String} (hlt : ¬a < b) (hne : ¬a = b) : b < a := by
  rcases String.le_total a b with h | h
  · exact absurd (String.le_antisymm h (String.not_lt.1 hlt)) hne
  · exact String.not_le.1 fun hab => hne (String.le_antisymm hab h)

theorem insertEntry_sorted (name : String) (value : α) {list : List (String × α)}
    (h : list.Pairwise (fun a b => a.1 < b.1)) :
    (insertEntry name value list).Pairwise (fun a b => a.1 < b.1) := by
  induction list with
  | nil => simp [insertEntry]
  | cons entry rest ih =>
    obtain ⟨hhead, htail⟩ := List.pairwise_cons.1 h
    unfold insertEntry
    split
    · rename_i hlt
      refine List.pairwise_cons.2 ⟨?_, h⟩
      intro x hx
      rcases List.mem_cons.1 hx with rfl | hx
      · exact hlt
      · exact String.lt_trans hlt (hhead x hx)
    · split
      · rename_i heq
        exact List.pairwise_cons.2 ⟨fun x hx => heq ▸ hhead x hx, htail⟩
      · rename_i hlt hne
        refine List.pairwise_cons.2 ⟨?_, ih htail⟩
        intro x hx
        rcases mem_insertEntry hx with rfl | hx
        · exact name_lt_of_not hlt hne
        · exact hhead x hx

/-- The table with one entry set; an older entry of that name is replaced. -/
def insert (name : String) (value : α) (table : NameMap α) : NameMap α :=
  ⟨insertEntry name value table.entries, insertEntry_sorted name value table.sorted⟩

def find? (table : NameMap α) (name : String) : Option α := table.entries.lookup name

def contains (table : NameMap α) (name : String) : Bool := (table.find? name).isSome

def names (table : NameMap α) : List String := table.entries.map (·.1)

def values (table : NameMap α) : List α := table.entries.map (·.2)

def size (table : NameMap α) : Nat := table.entries.length

def isEmpty (table : NameMap α) : Bool := table.entries.isEmpty

def filter (keep : String → α → Bool) (table : NameMap α) : NameMap α :=
  ⟨table.entries.filter fun e => keep e.1 e.2, table.sorted.filter _⟩

/-- The table with every value replaced by a function of its name and itself. -/
def mapValues (f : String → α → β) (table : NameMap α) : NameMap β :=
  ⟨table.entries.map fun e => (e.1, f e.1 e.2),
    List.pairwise_map.2 (table.sorted.imp fun h => h)⟩

def insertAll (entries : List (String × α)) (table : NameMap α) : NameMap α :=
  entries.foldl (fun t e => t.insert e.1 e.2) table

/-- The table of a list of entries; of two entries of one name the later wins. -/
def ofList (entries : List (String × α)) : NameMap α := empty.insertAll entries

/-! ### Look-up -/

theorem lookup_insertEntry (name : String) (value : α) (list : List (String × α))
    (other : String) :
    (insertEntry name value list).lookup other =
      if other = name then some value else list.lookup other := by
  induction list with
  | nil =>
    by_cases h : other = name
    · simp [insertEntry, h]
    · have hb : (other == name) = false := by simpa using h
      simp [insertEntry, List.lookup_cons, h, hb]
  | cons entry rest ih =>
    obtain ⟨key, stored⟩ := entry
    unfold insertEntry
    split
    · by_cases h : other = name
      · simp [h]
      · have hb : (other == name) = false := by simpa using h
        simp [List.lookup_cons, h, hb]
    · split
      · rename_i heq
        simp only at heq
        subst heq
        by_cases h : other = name
        · simp [h]
        · have hb : (other == name) = false := by simpa using h
          simp [List.lookup_cons, h, hb]
      · rename_i hne
        simp only at hne
        by_cases hk : other = key
        · have hn : ¬other = name := fun h => hne (h.symm.trans hk)
          subst hk
          simp [hn]
        · have hb : (other == key) = false := by simpa using hk
          simp only [List.lookup_cons, hb]
          exact ih

@[simp] theorem find?_insert (name : String) (value : α) (table : NameMap α) (other : String) :
    (table.insert name value).find? other =
      if other = name then some value else table.find? other :=
  lookup_insertEntry name value table.entries other

@[simp] theorem find?_empty (name : String) : (empty : NameMap α).find? name = none := rfl

theorem lookup_eq_none_of_lt {list : List (String × α)} {name : String}
    (h : ∀ x ∈ list, name < x.1) : list.lookup name = none := by
  induction list with
  | nil => rfl
  | cons entry rest ih =>
    obtain ⟨key, stored⟩ := entry
    have hlt : name < key := h _ List.mem_cons_self
    have hb : (name == key) = false := by
      simpa using fun heq : name = key => String.lt_irrefl key (heq ▸ hlt)
    simp only [List.lookup_cons, hb]
    exact ih fun x hx => h x (List.mem_cons_of_mem _ hx)

theorem entries_ext {l₁ l₂ : List (String × α)}
    (h₁ : l₁.Pairwise (fun a b => a.1 < b.1)) (h₂ : l₂.Pairwise (fun a b => a.1 < b.1))
    (h : ∀ name, l₁.lookup name = l₂.lookup name) : l₁ = l₂ := by
  induction l₁ generalizing l₂ with
  | nil =>
    cases l₂ with
    | nil => rfl
    | cons entry rest =>
      obtain ⟨key, value⟩ := entry
      have := h key
      simp at this
  | cons e₁ r₁ ih =>
    obtain ⟨k₁, v₁⟩ := e₁
    obtain ⟨hh₁, ht₁⟩ := List.pairwise_cons.1 h₁
    cases l₂ with
    | nil =>
      have := h k₁
      simp at this
    | cons e₂ r₂ =>
      obtain ⟨k₂, v₂⟩ := e₂
      obtain ⟨hh₂, ht₂⟩ := List.pairwise_cons.1 h₂
      have hk : k₁ = k₂ := by
        rcases Decidable.em (k₁ = k₂) with heq | hne
        · exact heq
        · exfalso
          rcases Decidable.em (k₁ < k₂) with hlt | hlt
          · have hnone : List.lookup k₁ ((k₂, v₂) :: r₂) = none :=
              lookup_eq_none_of_lt fun x hx => by
                rcases List.mem_cons.1 hx with rfl | hx
                · exact hlt
                · exact String.lt_trans hlt (hh₂ x hx)
            have hk := h k₁
            rw [hnone] at hk
            simp at hk
          · have hlt := name_lt_of_not hlt hne
            have hnone : List.lookup k₂ ((k₁, v₁) :: r₁) = none :=
              lookup_eq_none_of_lt fun x hx => by
                rcases List.mem_cons.1 hx with rfl | hx
                · exact hlt
                · exact String.lt_trans hlt (hh₁ x hx)
            have hk := h k₂
            rw [hnone] at hk
            simp at hk
      subst hk
      have hv : v₁ = v₂ := by
        have := h k₁
        simpa [List.lookup_cons] using this
      subst hv
      refine congrArg _ (ih ht₁ ht₂ fun name => ?_)
      rcases Decidable.em (name = k₁) with rfl | hne
      · rw [lookup_eq_none_of_lt hh₁, lookup_eq_none_of_lt hh₂]
      · have hb : (name == k₁) = false := by simpa using hne
        have := h name
        simpa [List.lookup_cons, hb] using this

/-- Two tables with the same look-ups are equal. -/
theorem ext_find? {t₁ t₂ : NameMap α} (h : ∀ name, t₁.find? name = t₂.find? name) : t₁ = t₂ := by
  have he : t₁.entries = t₂.entries := entries_ext t₁.sorted t₂.sorted h
  cases t₁
  cases t₂
  cases he
  rfl

/-! ### Entries -/

theorem lookup_eq_some_iff_mem {list : List (String × α)}
    (h : list.Pairwise (fun a b => a.1 < b.1)) {name : String} {value : α} :
    list.lookup name = some value ↔ (name, value) ∈ list := by
  induction list with
  | nil => simp
  | cons entry rest ih =>
    obtain ⟨key, stored⟩ := entry
    obtain ⟨hhead, htail⟩ := List.pairwise_cons.1 h
    by_cases hk : name = key
    · subst hk
      have hnot : (name, value) ∉ rest := fun hmem =>
        String.lt_irrefl name (hhead (name, value) hmem)
      simp [hnot, eq_comm]
    · have hb : (name == key) = false := by simpa using hk
      simp [List.lookup_cons, hb, hk, ih htail]

theorem mem_entries {table : NameMap α} {name : String} {value : α} :
    (name, value) ∈ table.entries ↔ table.find? name = some value :=
  (lookup_eq_some_iff_mem table.sorted).symm

theorem mem_values {table : NameMap α} {value : α} :
    value ∈ table.values ↔ ∃ name, table.find? name = some value := by
  simp [values, ← mem_entries]

theorem mem_names {table : NameMap α} {name : String} :
    name ∈ table.names ↔ ∃ value, table.find? name = some value := by
  simp [names, ← mem_entries]

/-! ### Filtering -/

theorem find?_filter (keep : String → α → Bool) (table : NameMap α) (name : String) :
    (table.filter keep).find? name = (table.find? name).filter (keep name) := by
  refine Option.ext fun value => ?_
  rw [← mem_entries, Option.filter_eq_some_iff, ← mem_entries]
  exact List.mem_filter

/-! ### Mapping -/

/-- Two maps after another that undo each other leave a table as it is. -/
theorem mapValues_mapValues_of_inverse {f : String → α → β} {g : String → β → α}
    (h : ∀ name a, g name (f name a) = a) (table : NameMap α) :
    (table.mapValues f).mapValues g = table := by
  have he : ((table.mapValues f).mapValues g).entries = table.entries := by
    simp only [mapValues, List.map_map]
    exact (List.map_congr_left fun e _ => by simp [h]).trans (List.map_id _)
  cases table
  simp only [mapValues] at he ⊢
  simp only [he]

theorem lookup_map (f : String → α → β) (list : List (String × α)) (name : String) :
    (list.map fun e => (e.1, f e.1 e.2)).lookup name = (list.lookup name).map (f name) := by
  induction list with
  | nil => rfl
  | cons entry rest ih =>
    obtain ⟨key, stored⟩ := entry
    by_cases h : name = key
    · subst h
      simp
    · have hb : (name == key) = false := by simpa using h
      simp only [List.map_cons, List.lookup_cons, hb]
      exact ih

@[simp] theorem find?_mapValues (f : String → α → β) (table : NameMap α) (name : String) :
    (table.mapValues f).find? name = (table.find? name).map (f name) :=
  lookup_map f table.entries name

/-! ### Rebuilding -/

theorem insertEntry_append_last {list : List (String × α)} {name : String} {value : α}
    (h : ∀ x ∈ list, x.1 < name) : insertEntry name value list = list ++ [(name, value)] := by
  induction list with
  | nil => rfl
  | cons entry rest ih =>
    have hlt : entry.1 < name := h _ List.mem_cons_self
    have h₁ : ¬name < entry.1 := fun hgt => String.lt_irrefl _ (String.lt_trans hlt hgt)
    have h₂ : ¬name = entry.1 := fun heq => String.lt_irrefl name (heq.symm ▸ hlt)
    simp only [insertEntry, h₁, h₂, if_false, List.cons_append]
    exact congrArg _ (ih fun x hx => h x (List.mem_cons_of_mem _ hx))

theorem entries_insertAll {list : List (String × α)} {table : NameMap α}
    (h : (table.entries ++ list).Pairwise (fun a b => a.1 < b.1)) :
    (table.insertAll list).entries = table.entries ++ list := by
  induction list generalizing table with
  | nil => simp [insertAll]
  | cons entry rest ih =>
    have hins : (table.insert entry.1 entry.2).entries = table.entries ++ [entry] :=
      insertEntry_append_last fun x hx =>
        (List.pairwise_append.1 h).2.2 x hx entry List.mem_cons_self
    have hstep : ((table.insert entry.1 entry.2).entries ++ rest).Pairwise
        (fun a b => a.1 < b.1) := by
      rw [hins]
      simpa using h
    calc (table.insertAll (entry :: rest)).entries
        = ((table.insert entry.1 entry.2).insertAll rest).entries := rfl
      _ = table.entries ++ (entry :: rest) := by rw [ih hstep, hins]; simp

theorem find?_insertAll (list : List (String × α)) (table : NameMap α) (name : String) :
    (table.insertAll list).find? name = (list.reverse.lookup name).or (table.find? name) := by
  induction list generalizing table with
  | nil => rfl
  | cons entry rest ih =>
    obtain ⟨key, stored⟩ := entry
    show ((table.insert key stored).insertAll rest).find? name = _
    rw [ih, find?_insert, List.reverse_cons, List.lookup_append, Option.or_assoc]
    congr 1
    by_cases hk : name = key
    · simp [hk]
    · have hb : (name == key) = false := by simpa using hk
      simp [List.lookup_cons, hb, hk]

/-- A table is made of entries exactly if it holds what the last entry of each name says. -/
theorem ofList_eq_iff {list : List (String × α)} {table : NameMap α} :
    ofList list = table ↔ ∀ name, table.find? name = list.reverse.lookup name := by
  have h (name : String) : (ofList list).find? name = list.reverse.lookup name := by
    rw [ofList, find?_insertAll, find?_empty, Option.or_none]
  constructor
  · rintro rfl
    exact h
  · exact fun htable => ext_find? fun name => (h name).trans (htable name).symm

theorem find?_insertAll_sorted {list : List (String × α)}
    (h : list.Pairwise (fun a b => a.1 < b.1)) (table : NameMap α) (name : String) :
    (table.insertAll list).find? name = (list.lookup name).or (table.find? name) := by
  induction list generalizing table with
  | nil => rfl
  | cons entry rest ih =>
    obtain ⟨key, stored⟩ := entry
    obtain ⟨hhead, htail⟩ := List.pairwise_cons.1 h
    calc (table.insertAll ((key, stored) :: rest)).find? name
        = ((table.insert key stored).insertAll rest).find? name := rfl
      _ = (rest.lookup name).or ((table.insert key stored).find? name) := ih htail _
      _ = (((key, stored) :: rest).lookup name).or (table.find? name) := by
        by_cases hk : name = key
        · subst hk
          simp [lookup_eq_none_of_lt hhead]
        · have hb : (name == key) = false := by simpa using hk
          simp [List.lookup_cons, hb, hk]

/-- Laying one table over another, the upper one counts where both have an entry. -/
theorem find?_insertAll_entries (upper lower : NameMap α) (name : String) :
    (lower.insertAll upper.entries).find? name = (upper.find? name).or (lower.find? name) :=
  find?_insertAll_sorted upper.sorted lower name

/-- Inserting a table's entries one by one gives the table back. -/
theorem ofList_entries (table : NameMap α) : ofList table.entries = table := by
  have h : (ofList table.entries).entries = table.entries := by
    have hs : ((empty : NameMap α).entries ++ table.entries).Pairwise
        (fun a b => a.1 < b.1) := by simpa [empty] using table.sorted
    simpa [ofList, empty] using entries_insertAll hs
  cases table
  simp only [ofList] at h ⊢
  generalize insertAll _ empty = built at h
  cases built
  cases h
  rfl

end NameMap
end Rollout
