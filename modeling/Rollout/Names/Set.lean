/-!
# Sets of names

`NameSet` is a finite set of names, kept as a strictly ascending list, so that equal sets are equal
values and listing a set always gives its names in the same order.
-/

namespace Rollout

structure NameSet where
  names : List String
  /-- The members ascend strictly, so none occurs twice. -/
  sorted : names.Pairwise (· < ·)
  deriving DecidableEq, Repr

namespace NameSet

def empty : NameSet := ⟨[], .nil⟩

instance : Inhabited NameSet := ⟨empty⟩

/-- Puts a name at its place in an ascending list, unless it is there already. -/
def insertName (name : String) : List String → List String
  | [] => [name]
  | other :: rest =>
    if name < other then name :: other :: rest
    else if name = other then other :: rest
    else other :: insertName name rest

theorem mem_insertName {name x : String} {list : List String} :
    x ∈ insertName name list ↔ x = name ∨ x ∈ list := by
  induction list with
  | nil => simp [insertName]
  | cons other rest ih =>
    unfold insertName
    split
    · simp
    · split
      · rename_i heq
        subst heq
        simp
      · simp only [List.mem_cons, ih]
        constructor
        · rintro (h | h | h)
          · exact .inr (.inl h)
          · exact .inl h
          · exact .inr (.inr h)
        · rintro (h | h | h)
          · exact .inr (.inl h)
          · exact .inl h
          · exact .inr (.inr h)

theorem insertName_sorted (name : String) {list : List String} (h : list.Pairwise (· < ·)) :
    (insertName name list).Pairwise (· < ·) := by
  induction list with
  | nil => simp [insertName]
  | cons other rest ih =>
    obtain ⟨hhead, htail⟩ := List.pairwise_cons.1 h
    unfold insertName
    split
    · rename_i hlt
      refine List.pairwise_cons.2 ⟨?_, h⟩
      intro x hx
      rcases List.mem_cons.1 hx with rfl | hx
      · exact hlt
      · exact String.lt_trans hlt (hhead x hx)
    · split
      · exact h
      · rename_i hlt hne
        refine List.pairwise_cons.2 ⟨?_, ih htail⟩
        intro x hx
        rcases mem_insertName.1 hx with rfl | hx
        · rcases String.le_total x other with hle | hle
          · exact absurd (String.le_antisymm hle (String.not_lt.1 hlt)) hne
          · exact String.not_le.1 fun hab => hne (String.le_antisymm hab hle)
        · exact hhead x hx

def insert (name : String) (set : NameSet) : NameSet :=
  ⟨insertName name set.names, insertName_sorted name set.sorted⟩

def contains (set : NameSet) (name : String) : Bool := set.names.contains name

def isEmpty (set : NameSet) : Bool := set.names.isEmpty

def ofList (names : List String) : NameSet := names.foldl (fun set name => set.insert name) empty

def filter (keep : String → Bool) (set : NameSet) : NameSet :=
  ⟨set.names.filter keep, set.sorted.filter _⟩

def diff (set other : NameSet) : NameSet := set.filter fun name => !other.contains name

instance : Membership String NameSet := ⟨fun set name => name ∈ set.names⟩

theorem mem_def {set : NameSet} {name : String} : name ∈ set ↔ name ∈ set.names := Iff.rfl

@[simp] theorem contains_eq_true {set : NameSet} {name : String} :
    set.contains name = true ↔ name ∈ set := by
  simp [contains, mem_def]

@[simp] theorem mem_insert {set : NameSet} {name x : String} :
    x ∈ set.insert name ↔ x = name ∨ x ∈ set := mem_insertName

@[simp] theorem mem_filter {set : NameSet} {keep : String → Bool} {name : String} :
    name ∈ set.filter keep ↔ name ∈ set ∧ keep name = true := List.mem_filter

@[simp] theorem mem_diff {set other : NameSet} {name : String} :
    name ∈ set.diff other ↔ name ∈ set ∧ name ∉ other := by
  rw [diff, mem_filter, Bool.not_eq_true', ← Bool.not_eq_true, contains_eq_true]

@[simp] theorem not_mem_empty {name : String} : name ∉ empty := List.not_mem_nil

theorem mem_foldl_insert {names : List String} {set : NameSet} {x : String} :
    x ∈ names.foldl (fun set name => set.insert name) set ↔ x ∈ set ∨ x ∈ names := by
  induction names generalizing set with
  | nil => simp
  | cons name rest ih => simp [ih, or_assoc, or_left_comm]

@[simp] theorem mem_ofList {names : List String} {x : String} : x ∈ ofList names ↔ x ∈ names := by
  simp [ofList, mem_foldl_insert]

/-! ### Rebuilding -/

theorem insertName_append_last {list : List String} {name : String} (h : ∀ x ∈ list, x < name) :
    insertName name list = list ++ [name] := by
  induction list with
  | nil => rfl
  | cons other rest ih =>
    have hlt : other < name := h _ List.mem_cons_self
    have h₁ : ¬name < other := fun hgt => String.lt_irrefl _ (String.lt_trans hlt hgt)
    have h₂ : ¬name = other := fun heq => String.lt_irrefl name (heq.symm ▸ hlt)
    simp only [insertName, h₁, h₂, if_false, List.cons_append]
    exact congrArg _ (ih fun x hx => h x (List.mem_cons_of_mem _ hx))

theorem names_foldl_insert {list : List String} {set : NameSet}
    (h : (set.names ++ list).Pairwise (· < ·)) :
    (list.foldl (fun set name => set.insert name) set).names = set.names ++ list := by
  induction list generalizing set with
  | nil => simp
  | cons name rest ih =>
    have hins : (set.insert name).names = set.names ++ [name] :=
      insertName_append_last fun x hx => (List.pairwise_append.1 h).2.2 x hx name List.mem_cons_self
    have hstep : ((set.insert name).names ++ rest).Pairwise (· < ·) := by
      rw [hins]
      simpa using h
    rw [List.foldl_cons, ih hstep, hins]
    simp

/-- Inserting the members of a set one by one gives the set back. -/
theorem ofList_names (set : NameSet) : ofList set.names = set := by
  have h : (ofList set.names).names = set.names := by
    have hs : ((empty : NameSet).names ++ set.names).Pairwise (· < ·) := by
      simpa [empty] using set.sorted
    simpa [ofList, empty] using names_foldl_insert hs
  generalize ofList set.names = built at h
  cases set
  cases built
  cases h
  rfl

end NameSet
end Rollout
