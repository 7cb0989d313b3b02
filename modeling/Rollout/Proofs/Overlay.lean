import Rollout.Store.Basic

/-!
# Components of several winners

Of the winners that are laid over each other, the last one that names a component decides on it.
Where different winners name different components, their order does not matter.
-/

namespace Rollout

def Winner.unnumbered (w : Winner) : Winner := { w with sequence := 0 }

theorem Winner.components_congr {w w' : Winner} (h : w.unnumbered = w'.unnumbered) :
    w.components = w'.components := by
  have hcomponents : w.unnumbered.components = w'.unnumbered.components := by rw [h]
  exact hcomponents

namespace EffectiveSet

theorem eq_of_parts {s t : EffectiveSet} (hversions : s.versions = t.versions)
    (hsources : s.sources = t.sources) : s = t := by
  cases s
  cases t
  cases hversions
  cases hsources
  rfl

/-! ### The last winner decides -/

/-- The last winner of a list that names a component, with what it brings. -/
def deciding? (winners : List Winner) (name : String) : Option (Winner × Contribution) :=
  winners.reverse.findSome? fun w => (w.components.find? name).map fun c => (w, c)

theorem deciding?_cons (w : Winner) (winners : List Winner) (name : String) :
    deciding? (w :: winners) name =
      (deciding? winners name).or ((w.components.find? name).map fun c => (w, c)) := by
  simp only [deciding?, List.reverse_cons, List.findSome?_append, List.findSome?_singleton]

theorem find?_versions_foldl (winners : List Winner) (set : EffectiveSet) (name : String) :
    (winners.foldl overlay set).versions.find? name =
      ((deciding? winners name).map fun d => d.2.version).or (set.versions.find? name) := by
  induction winners generalizing set with
  | nil => rfl
  | cons w winners ih =>
    have hover : (set.overlay w).versions.find? name =
        ((w.components.find? name).map fun c => c.version).or (set.versions.find? name) := by
      simp only [overlay, NameMap.find?_insertAll_entries, Winner.versions, NameMap.find?_mapValues]
    rw [List.foldl_cons, ih, hover, deciding?_cons]
    cases deciding? winners name <;> cases w.components.find? name <;> rfl

theorem find?_sources_foldl (winners : List Winner) (set : EffectiveSet) (name : String) :
    (winners.foldl overlay set).sources.find? name =
      ((deciding? winners name).map fun d => d.1.scope).or (set.sources.find? name) := by
  induction winners generalizing set with
  | nil => rfl
  | cons w winners ih =>
    have hover : (set.overlay w).sources.find? name =
        ((w.components.find? name).map fun _ => w.scope).or (set.sources.find? name) := by
      simp only [overlay, NameMap.find?_insertAll_entries, NameMap.find?_mapValues]
    rw [List.foldl_cons, ih, hover, deciding?_cons]
    cases deciding? winners name <;> cases w.components.find? name <;> rfl

theorem find?_versions_ofWinners (winners : List Winner) (name : String) :
    (ofWinners winners).versions.find? name =
      (deciding? (inOrder winners) name).map fun d => d.2.version := by
  rw [ofWinners, find?_versions_foldl]
  exact Option.or_none

theorem find?_sources_ofWinners (winners : List Winner) (name : String) :
    (ofWinners winners).sources.find? name =
      (deciding? (inOrder winners) name).map fun d => d.1.scope := by
  rw [ofWinners, find?_sources_foldl]
  exact Option.or_none

theorem mem_of_deciding? {winners : List Winner} {name : String} {w : Winner} {c : Contribution}
    (h : deciding? winners name = some (w, c)) :
    w ∈ winners ∧ w.components.find? name = some c := by
  obtain ⟨w', hmem, hw'⟩ := List.exists_of_findSome?_eq_some h
  obtain ⟨c', hc', heq⟩ := Option.map_eq_some_iff.1 hw'
  cases heq
  exact ⟨List.mem_reverse.1 hmem, hc'⟩

theorem deciding?_eq_none {winners : List Winner} {name : String} :
    deciding? winners name = none ↔ ∀ w ∈ winners, w.components.find? name = none := by
  simp only [deciding?, List.findSome?_eq_none_iff, List.mem_reverse, Option.map_eq_none_iff]

theorem mem_inOrder {winners : List Winner} {w : Winner} : w ∈ inOrder winners ↔ w ∈ winners :=
  List.mem_mergeSort

/-! ### Lists that differ in order only -/

/-- Whether the winners of a list are among those of another one, but for their places. -/
def Within (winners others : List Winner) : Prop :=
  ∀ w ∈ winners, ∃ other ∈ others, other.unnumbered = w.unnumbered

/-- Whether at most one winner of a list names each component. -/
def OneForEach (winners : List Winner) : Prop :=
  ∀ w ∈ winners, ∀ w' ∈ winners, ∀ name c c', w.components.find? name = some c →
    w'.components.find? name = some c' → w.unnumbered = w'.unnumbered

section Agree

variable {winners others : List Winner} (hleft : Within winners others)
  (hright : Within others winners) (hone : OneForEach winners)

include hleft hright hone

theorem deciding?_agree (name : String) :
    (deciding? winners name).map (fun d => (d.1.unnumbered, d.2)) =
      (deciding? others name).map fun d => (d.1.unnumbered, d.2) := by
  cases hw : deciding? winners name with
  | none =>
    have hothers : deciding? others name = none := by
      refine deciding?_eq_none.2 fun other hother => ?_
      obtain ⟨w, hmem, hsame⟩ := hright other hother
      rw [← Winner.components_congr hsame]
      exact deciding?_eq_none.1 hw w hmem
    rw [hothers]
  | some d =>
    obtain ⟨w, c⟩ := d
    obtain ⟨hmem, hc⟩ := mem_of_deciding? hw
    obtain ⟨other, hother, hsame⟩ := hleft w hmem
    cases ho : deciding? others name with
    | none =>
      have hnone := deciding?_eq_none.1 ho other hother
      rw [Winner.components_congr hsame, hc] at hnone
      cases hnone
    | some d' =>
      obtain ⟨other', c'⟩ := d'
      obtain ⟨hother', hc'⟩ := mem_of_deciding? ho
      -- both deciding winners name the component, so they are one
      obtain ⟨w', hmem', hsame'⟩ := hright other' hother'
      rw [← Winner.components_congr hsame'] at hc'
      have hunique := hone w hmem w' hmem' name c c' hc hc'
      have hcc : c = c' := by
        rw [Winner.components_congr hunique, hc'] at hc
        exact (Option.some.inj hc).symm
      simp only [Option.map_some]
      rw [hunique, hsame', hcc]

theorem ofWinners_eq_of_within : ofWinners winners = ofWinners others := by
  have hleft' : Within (inOrder winners) (inOrder others) := fun w hw => by
    obtain ⟨other, hother, hsame⟩ := hleft w (mem_inOrder.1 hw)
    exact ⟨other, mem_inOrder.2 hother, hsame⟩
  have hright' : Within (inOrder others) (inOrder winners) := fun w hw => by
    obtain ⟨other, hother, hsame⟩ := hright w (mem_inOrder.1 hw)
    exact ⟨other, mem_inOrder.2 hother, hsame⟩
  have hone' : OneForEach (inOrder winners) := fun w hw w' hw' =>
    hone w (mem_inOrder.1 hw) w' (mem_inOrder.1 hw')
  have hagree := deciding?_agree hleft' hright' hone'
  have hversions : (ofWinners winners).versions = (ofWinners others).versions := by
    refine NameMap.ext_find? fun name => ?_
    have h := congrArg (Option.map fun d => d.2.version) (hagree name)
    rw [Option.map_map, Option.map_map] at h
    rw [find?_versions_ofWinners, find?_versions_ofWinners]
    exact h
  have hsources : (ofWinners winners).sources = (ofWinners others).sources := by
    refine NameMap.ext_find? fun name => ?_
    have h := congrArg (Option.map fun d => d.1.scope) (hagree name)
    rw [Option.map_map, Option.map_map] at h
    rw [find?_sources_ofWinners, find?_sources_ofWinners]
    exact h
  exact eq_of_parts hversions hsources

end Agree

end EffectiveSet
end Rollout
