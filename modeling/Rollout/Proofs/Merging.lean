import Mathlib.Data.List.Nodup
import Rollout.Proofs.Store.Order

/-!
# Who decides on a component

Of the winners of a list that name a component, the one with the greatest place decides on it, and
of those that share this place the one that stands last in the list.  `Decides` says so without
sorting anything.  It looks only at the winners of one place at a time, so lists that agree place by
place come to the same components: a list may be sorted by place, and winners of different places
may stand in any order.
-/

namespace Rollout.EffectiveSet

/-! ### Winners of one place -/

/-- The winners of a list that stand at a place, in the order of the list. -/
def atPlace (winners : List Winner) (place : UInt64) : List Winner :=
  winners.filter fun w => w.sequence = place

/-- The winners of a list that name a component, in the order of the list. -/
def naming (winners : List Winner) (name : String) : List Winner :=
  winners.filter fun w => w.components.contains name

/-- Whether two lists hold the same winners at each place, in the same order. -/
def SamePlaces (winners others : List Winner) : Prop :=
  ∀ place, atPlace winners place = atPlace others place

/-- Whether a list is another one sorted by place, with the winners of one place in their order. -/
structure StablySorted (winners sorted : List Winner) : Prop where
  ascending : sorted.Pairwise fun a b => a.sequence ≤ b.sequence
  stable : SamePlaces winners sorted

/-- Whether a winner decides on a component, with what it brings. -/
structure Decides (winners : List Winner) (name : String) (w : Winner) (c : Contribution) :
    Prop where
  brings : w.components.find? name = some c
  greatest : ∀ w' ∈ naming winners name, w'.sequence ≤ w.sequence
  latest : (atPlace (naming winners name) w.sequence).getLast? = some w

theorem mem_atPlace {winners : List Winner} {place : UInt64} {w : Winner} :
    w ∈ atPlace winners place ↔ w ∈ winners ∧ w.sequence = place := by
  simp [atPlace]

theorem mem_naming {winners : List Winner} {name : String} {w : Winner} :
    w ∈ naming winners name ↔ w ∈ winners ∧ w.components.contains name = true := by
  simp [naming]

theorem contains_of_find? {w : Winner} {name : String} {c : Contribution}
    (h : w.components.find? name = some c) : w.components.contains name = true := by
  rw [NameMap.contains, h]
  rfl

theorem atPlace_naming (winners : List Winner) (name : String) (place : UInt64) :
    atPlace (naming winners name) place = naming (atPlace winners place) name :=
  List.filter_comm _ _ winners

theorem SamePlaces.naming {winners others : List Winner} (h : SamePlaces winners others)
    (name : String) : SamePlaces (naming winners name) (naming others name) := by
  intro place
  rw [atPlace_naming, atPlace_naming, h place]

theorem SamePlaces.symm {winners others : List Winner} (h : SamePlaces winners others) :
    SamePlaces others winners :=
  fun place => (h place).symm

theorem SamePlaces.mem {winners others : List Winner} (h : SamePlaces winners others) {w : Winner}
    (hw : w ∈ winners) : w ∈ others := by
  have hplace : w ∈ atPlace winners w.sequence := mem_atPlace.2 ⟨hw, rfl⟩
  rw [h w.sequence] at hplace
  exact (mem_atPlace.1 hplace).1

theorem Decides.of_samePlaces {winners others : List Winner} {name : String} {w : Winner}
    {c : Contribution} (h : Decides winners name w c) (hsame : SamePlaces winners others) :
    Decides others name w c where
  brings := h.brings
  greatest w' hw' := h.greatest w' ((hsame.naming name).symm.mem hw')
  latest := by
    rw [← hsame.naming name w.sequence]
    exact h.latest

/-! ### Lists that agree place by place -/

theorem samePlaces_inOrder (winners : List Winner) : SamePlaces winners (inOrder winners) := by
  intro place
  -- the winners of one place are sorted as they stand, so sorting keeps them as a sublist
  have hflat : (atPlace winners place).Pairwise fun a b =>
      decide (a.sequence ≤ b.sequence) = true := by
    refine List.pairwise_iff_forall_sublist.2 fun {a b} hsub => ?_
    have ha := (mem_atPlace.1 (hsub.subset (by simp : a ∈ [a, b]))).2
    have hb := (mem_atPlace.1 (hsub.subset (by simp : b ∈ [a, b]))).2
    rw [ha, hb]
    exact decide_eq_true (UInt64.le_refl place)
  have hkept : (atPlace winners place).Sublist (inOrder winners) :=
    List.sublist_mergeSort sequence_trans sequence_total hflat List.filter_sublist
  have hplaced : (atPlace winners place).Sublist (atPlace (inOrder winners) place) := by
    have hfilter := hkept.filter fun w => decide (w.sequence = place)
    rwa [List.filter_eq_self.2 fun w hw => decide_eq_true (mem_atPlace.1 hw).2] at hfilter
  refine hplaced.eq_of_length ?_
  exact ((List.mergeSort_perm winners _).filter _).length_eq.symm

theorem stablySorted_inOrder (winners : List Winner) : StablySorted winners (inOrder winners) :=
  ⟨pairwise_inOrder winners, samePlaces_inOrder winners⟩

theorem StablySorted.perm {winners sorted : List Winner} (h : StablySorted winners sorted) :
    winners.Perm sorted := by
  have hcount (list : List Winner) (w : Winner) :
      (atPlace list w.sequence).count w = list.count w := List.count_filter (by simp)
  exact List.perm_iff_count.2 fun w => by rw [← hcount winners, h.stable, hcount]

/-- At most one winner stands at each place of a list of winners with different places. -/
theorem length_atPlace_le_one {winners : List Winner}
    (hplaces : (winners.map Winner.sequence).Nodup) (place : UInt64) :
    (atPlace winners place).length ≤ 1 := by
  have hpairwise : (atPlace winners place).Pairwise fun a b => a.sequence ≠ b.sequence :=
    (List.pairwise_map.1 hplaces).filter _
  have hall : ∀ w ∈ atPlace winners place, w.sequence = place := fun w hw => (mem_atPlace.1 hw).2
  cases hlist : atPlace winners place with
  | nil => exact Nat.zero_le 1
  | cons a rest =>
    rw [hlist] at hpairwise hall
    cases rest with
    | nil => exact Nat.le_refl 1
    | cons b rest =>
      have hne := (List.pairwise_cons.1 hpairwise).1 b List.mem_cons_self
      have hb := hall b (List.mem_cons_of_mem _ List.mem_cons_self)
      exact absurd ((hall a List.mem_cons_self).trans hb.symm) hne

theorem samePlaces_of_perm {winners others : List Winner} (hperm : winners.Perm others)
    (hplaces : (winners.map Winner.sequence).Nodup) : SamePlaces winners others := by
  intro place
  have hsame : (atPlace winners place).Perm (atPlace others place) := hperm.filter _
  have hone := length_atPlace_le_one hplaces place
  cases hlist : atPlace winners place with
  | nil =>
    rw [hlist] at hsame
    exact hsame.symm.eq_nil.symm
  | cons w rest =>
    rw [hlist, List.length_cons] at hone
    have hrest : rest = [] := List.eq_nil_of_length_eq_zero (by omega)
    rw [hlist, hrest] at hsame
    rw [hrest, hsame.symm.eq_singleton]

/-! ### The last winner of a sorted list decides -/

theorem getLast?_naming_of_deciding? {winners : List Winner} {name : String} {w : Winner}
    {c : Contribution} (h : deciding? winners name = some (w, c)) :
    (naming winners name).getLast? = some w := by
  induction winners with
  | nil => cases h
  | cons first rest ih =>
    rw [deciding?_cons] at h
    cases hlater : deciding? rest name with
    | some decided =>
      rw [hlater] at h
      cases h
      have hlast := ih hlater
      rw [naming, List.filter_cons]
      split
      · rw [← naming, List.getLast?_cons, hlast]
        rfl
      · exact hlast
    | none =>
      rw [hlater] at h
      obtain ⟨c', hc', heq⟩ := Option.map_eq_some_iff.1 h
      cases heq
      have hrest : naming rest name = [] := by
        refine List.filter_eq_nil_iff.2 fun w' hw' => ?_
        rw [NameMap.contains, deciding?_eq_none.1 hlater w' hw']
        exact Bool.false_ne_true
      rw [naming, List.filter_cons, if_pos (contains_of_find? hc'), ← naming, hrest]
      rfl

theorem decides_of_deciding? {winners : List Winner}
    (hsorted : winners.Pairwise fun a b => a.sequence ≤ b.sequence) {name : String} {w : Winner}
    {c : Contribution} (h : deciding? winners name = some (w, c)) : Decides winners name w c where
  brings := (mem_of_deciding? h).2
  greatest w' hw' := by
    obtain ⟨hmem, hnames⟩ := mem_naming.1 hw'
    refine sequence_le_of_deciding? hsorted h w' hmem fun hnone => ?_
    rw [NameMap.contains, hnone] at hnames
    cases hnames
  latest := by
    obtain ⟨before, hsplit⟩ := List.getLast?_eq_some_iff.1 (getLast?_naming_of_deciding? h)
    rw [hsplit, atPlace, List.filter_append, List.filter_singleton]
    simp

theorem Decides.mem_naming {winners : List Winner} {name : String} {w : Winner} {c : Contribution}
    (h : Decides winners name w c) : w ∈ naming winners name :=
  (mem_atPlace.1 (List.mem_of_getLast? h.latest)).1

/-- One winner decides, with one contribution. -/
theorem Decides.unique {winners : List Winner} {name : String} {w w' : Winner} {c c' : Contribution}
    (h : Decides winners name w c) (h' : Decides winners name w' c') : (w, c) = (w', c') := by
  have hplace : w.sequence = w'.sequence :=
    UInt64.le_antisymm (h'.greatest w h.mem_naming) (h.greatest w' h'.mem_naming)
  have hlast := h.latest
  rw [hplace, h'.latest] at hlast
  cases hlast
  have hbrings := h.brings
  rw [h'.brings] at hbrings
  cases hbrings
  rfl

/-- The winner that decides is the last one that names the component once the list is sorted. -/
theorem decides_iff {winners : List Winner} {name : String} {w : Winner} {c : Contribution} :
    Decides winners name w c ↔ deciding? (inOrder winners) name = some (w, c) := by
  have hsame := samePlaces_inOrder winners
  constructor
  · intro h
    have hsorted := h.of_samePlaces hsame
    cases hdecided : deciding? (inOrder winners) name with
    | none =>
      obtain ⟨hmem, hnames⟩ := EffectiveSet.mem_naming.1 hsorted.mem_naming
      rw [NameMap.contains, deciding?_eq_none.1 hdecided w hmem] at hnames
      cases hnames
    | some decided =>
      have hunique := hsorted.unique (decides_of_deciding? (pairwise_inOrder winners) hdecided)
      exact congrArg some hunique.symm
  · intro h
    exact (decides_of_deciding? (pairwise_inOrder winners) h).of_samePlaces hsame.symm

theorem isSome_deciding?_inOrder {winners : List Winner} {name : String} :
    (deciding? (inOrder winners) name).isSome = true ↔
      ∃ w ∈ winners, w.components.contains name = true := by
  rw [Option.isSome_iff_exists]
  constructor
  · rintro ⟨⟨w, c⟩, h⟩
    obtain ⟨hmem, hc⟩ := mem_of_deciding? h
    exact ⟨w, mem_inOrder.1 hmem, contains_of_find? hc⟩
  · rintro ⟨w, hmem, hnames⟩
    cases hdecided : deciding? (inOrder winners) name with
    | none =>
      rw [NameMap.contains, deciding?_eq_none.1 hdecided w (mem_inOrder.2 hmem)] at hnames
      cases hnames
    | some decided => exact ⟨decided, rfl⟩

/-! ### What winners come to -/

section Result

variable {winners others : List Winner} {name : String}

theorem contains_versions_ofWinners : (ofWinners winners).versions.contains name = true ↔
    ∃ w ∈ winners, w.components.contains name = true := by
  rw [NameMap.contains, find?_versions_ofWinners, Option.isSome_map]
  exact isSome_deciding?_inOrder

theorem contains_sources_ofWinners : (ofWinners winners).sources.contains name = true ↔
    ∃ w ∈ winners, w.components.contains name = true := by
  rw [NameMap.contains, find?_sources_ofWinners, Option.isSome_map]
  exact isSome_deciding?_inOrder

theorem find?_ofWinners_iff {version : String} {source : Scope} :
    ((ofWinners winners).versions.find? name = some version ∧
      (ofWinners winners).sources.find? name = some source) ↔
      ∃ w c, Decides winners name w c ∧ c.version = version ∧ w.scope = source := by
  rw [find?_versions_ofWinners, find?_sources_ofWinners, Option.map_eq_some_iff,
    Option.map_eq_some_iff]
  constructor
  · rintro ⟨⟨⟨w, c⟩, hdecided, hversion⟩, ⟨decided, hdecided', hsource⟩⟩
    rw [hdecided] at hdecided'
    cases hdecided'
    exact ⟨w, c, decides_iff.2 hdecided, hversion, hsource⟩
  · rintro ⟨w, c, hdecides, hversion, hsource⟩
    have hdecided := decides_iff.1 hdecides
    exact ⟨⟨(w, c), hdecided, hversion⟩, ⟨(w, c), hdecided, hsource⟩⟩

theorem deciding?_of_samePlaces (h : SamePlaces winners others) (name : String) :
    deciding? (inOrder winners) name = deciding? (inOrder others) name := by
  refine Option.ext fun decided => ?_
  obtain ⟨w, c⟩ := decided
  rw [← decides_iff, ← decides_iff]
  exact ⟨fun hdecides => hdecides.of_samePlaces h, fun hdecides => hdecides.of_samePlaces h.symm⟩

/-- Lists that agree place by place come to the same components. -/
theorem ofWinners_of_samePlaces (h : SamePlaces winners others) :
    ofWinners winners = ofWinners others := by
  refine eq_of_parts (NameMap.ext_find? fun name => ?_) (NameMap.ext_find? fun name => ?_)
  · rw [find?_versions_ofWinners, find?_versions_ofWinners, deciding?_of_samePlaces h]
  · rw [find?_sources_ofWinners, find?_sources_ofWinners, deciding?_of_samePlaces h]

end Result

/-- Whether a set holds what winners come to: each component that one of them names, as the winner
brings it that decides on the component. -/
structure Merges (winners : List Winner) (set : EffectiveSet) : Prop where
  named : ∀ name, set.versions.contains name = true ↔
    ∃ w ∈ winners, w.components.contains name = true
  sourced : ∀ name, set.sources.contains name = set.versions.contains name
  decided : ∀ name version source,
    (set.versions.find? name = some version ∧ set.sources.find? name = some source) ↔
      ∃ w c, Decides winners name w c ∧ c.version = version ∧ w.scope = source

theorem merges_ofWinners (winners : List Winner) : Merges winners (ofWinners winners) where
  named _ := contains_versions_ofWinners
  sourced name := by
    rw [Bool.eq_iff_iff, contains_sources_ofWinners, contains_versions_ofWinners]
  decided _ _ _ := find?_ofWinners_iff

/-- What winners come to:

* The components are those that some winner names, each with a version and a source.
* Version and source are those of the winner with the greatest place among those that name the
  component, and at one place of the one that stands last.
* Winners of different places may stand in any order.
* The list may be sorted by place, if winners of one place keep their order as in `inOrder`. -/
theorem last_acceptance_decides (winners : List Winner) :
    (∀ name,
      ((ofWinners winners).versions.contains name = true ↔
        ∃ w ∈ winners, w.components.contains name = true) ∧
      ((ofWinners winners).sources.contains name = true ↔
        ∃ w ∈ winners, w.components.contains name = true)) ∧
    (∀ name version source,
      ((ofWinners winners).versions.find? name = some version ∧
        (ofWinners winners).sources.find? name = some source) ↔
      ∃ w c, Decides winners name w c ∧ c.version = version ∧ w.scope = source) ∧
    ((winners.map Winner.sequence).Nodup →
      ∀ others, winners.Perm others → ofWinners others = ofWinners winners) ∧
    StablySorted winners (inOrder winners) ∧
    ∀ sorted, StablySorted winners sorted → ofWinners sorted = ofWinners winners := by
  refine ⟨fun name => ⟨contains_versions_ofWinners, contains_sources_ofWinners⟩,
    fun name version source => find?_ofWinners_iff, fun hplaces others hperm => ?_,
    stablySorted_inOrder winners, fun sorted hsorted => ?_⟩
  · exact (ofWinners_of_samePlaces (samePlaces_of_perm hperm hplaces)).symm
  · exact (ofWinners_of_samePlaces hsorted.stable).symm

/-- Two winners of different places in the other order, and two of one place behind a later one. -/
theorem last_acceptance_decides_at_one_place :
    let winner (scope version : String) (place : UInt64) : Winner :=
      ⟨⟨scope⟩, "d", scope, 1, place, .ofList [("c", ⟨version, scope, "d"⟩)]⟩
    let a := winner "thinggroup/a" "1.0.0" 4
    let b := winner "thinggroup/b" "2.0.0" 7
    let later := winner "thinggroup/e" "3.0.0" 7
    ofWinners [b, a] = ofWinners [a, b] ∧
    ofWinners [a, b, later] = ofWinners [b, later, a] ∧
    (ofWinners [b, later, a]).versions.find? "c" = some "3.0.0" ∧
    (ofWinners [b, later, a]).sources.find? "c" = some ⟨"thinggroup/e"⟩ := by
  intro winner a b later
  obtain ⟨-, -, hperm, -⟩ := last_acceptance_decides [a, b]
  obtain ⟨-, hdecides, -, -, hsorted⟩ := last_acceptance_decides [b, later, a]
  have hplaces : ([a, b].map Winner.sequence).Nodup := by decide
  have hstable : StablySorted [b, later, a] [a, b, later] := by
    refine ⟨by decide, fun place => ?_⟩
    by_cases ha : a.sequence = place
    · subst ha
      decide
    · simp only [atPlace, List.filter_cons, List.filter_nil, ha, decide_false, Bool.false_eq_true,
        if_false]
  refine ⟨hperm hplaces _ (.swap b a []), hsorted _ hstable, (hdecides _ _ _).2 ?_⟩
  exact ⟨later, ⟨"3.0.0", "thinggroup/e", "d"⟩, ⟨by decide, by decide, by decide⟩, rfl, rfl⟩

end Rollout.EffectiveSet
