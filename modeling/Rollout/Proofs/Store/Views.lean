import Rollout.Proofs.Merging
import Rollout.Proofs.Store.Order

/-!
# Three views of the components of a store

A store tells in three ways which components it asks for: by the components that its winners come
to, by asking whether some winner lists a component, and by the table of the scopes behind each
component.  The first one goes by the scope that a winner names, the other two by the scope under
which it stands.  These are the same in every store that was opened and changed
(`Reachable.atHome`), so the three views agree.
-/

namespace Rollout.Store

/-! ### Winners in their own scopes -/

/-- Whether each winner stands under the scope that it names. -/
def AtHome (s : Store) : Prop := ∀ scope w, s.winner? scope = some w → w.scope = scope

theorem Sound.atHome {s : Store} (h : s.Sound) : s.AtHome := by
  intro scope w hw
  have hname : w.scope.name = scope.name := (h scope.name w hw).1
  exact congrArg Scope.mk hname

theorem Reachable.atHome {s : Store} (h : s.Reachable) : s.AtHome := h.sound.atHome

/-! ### The table of scopes behind each component -/

/-- Whether the winner of a scope lists a component. -/
def Lists (s : Store) (scope : Scope) (component : String) : Prop :=
  ∃ w, s.winner? scope = some w ∧ w.components.contains component = true

/-- The names of scopes that a table has for a component. -/
def behind (roots : NameMap NameSet) (component : String) : NameSet :=
  (roots.find? component).getD .empty

theorem mem_behind_addRoot {scope added component name : String} {roots : NameMap NameSet} :
    name ∈ behind (addRoot scope roots added) component ↔
      name ∈ behind roots component ∨ component = added ∧ name = scope := by
  rw [addRoot, behind, NameMap.find?_insert]
  by_cases h : component = added
  · subst h
    rw [if_pos rfl, Option.getD_some, NameSet.mem_insert, or_comm]
    simp [behind]
  · rw [if_neg h]
    simp [behind, h]

theorem mem_behind_foldl_addRoot {scope component name : String} {added : List String}
    {roots : NameMap NameSet} :
    name ∈ behind (added.foldl (addRoot scope) roots) component ↔
      name ∈ behind roots component ∨ component ∈ added ∧ name = scope := by
  induction added generalizing roots with
  | nil => simp
  | cons first added ih =>
    rw [List.foldl_cons, ih, mem_behind_addRoot, or_assoc, ← or_and_right, List.mem_cons]

theorem mem_behind_foldl {component name : String} {entries : List (String × Winner)}
    {roots : NameMap NameSet} :
    name ∈ behind (entries.foldl
        (fun roots e => e.2.components.names.foldl (addRoot e.1) roots) roots) component ↔
      name ∈ behind roots component ∨
        ∃ w, (name, w) ∈ entries ∧ component ∈ w.components.names := by
  induction entries generalizing roots with
  | nil => simp
  | cons e entries ih =>
    obtain ⟨scope, first⟩ := e
    rw [List.foldl_cons, ih, mem_behind_foldl_addRoot, or_assoc]
    refine or_congr_right ⟨?_, ?_⟩
    · rintro (⟨hnames, rfl⟩ | ⟨w, hmem, hnames⟩)
      · exact ⟨first, List.mem_cons_self, hnames⟩
      · exact ⟨w, List.mem_cons_of_mem _ hmem, hnames⟩
    · rintro ⟨w, hmem, hnames⟩
      rcases List.mem_cons.1 hmem with heq | hmem
      · cases heq
        exact .inl ⟨hnames, rfl⟩
      · exact .inr ⟨w, hmem, hnames⟩

/-- Whether a table has some scope for each component in it. -/
def NoneEmpty (roots : NameMap NameSet) : Prop :=
  ∀ component groups, roots.find? component = some groups → ∃ name, name ∈ groups

theorem NoneEmpty.addRoot {roots : NameMap NameSet} (h : NoneEmpty roots)
    (scope component : String) : NoneEmpty (addRoot scope roots component) := by
  intro other groups hgroups
  rw [Store.addRoot, NameMap.find?_insert] at hgroups
  split at hgroups
  · cases hgroups
    exact ⟨scope, NameSet.mem_insert.2 (.inl rfl)⟩
  · exact h other groups hgroups

theorem noneEmpty_roots (s : Store) : NoneEmpty s.roots :=
  List.foldlRecOn _ _ (fun _ _ hgroups => nomatch hgroups) fun _ hroots e _ =>
    List.foldlRecOn _ _ hroots fun _ hroots component _ => hroots.addRoot e.1 component

theorem mem_names_iff_contains {α : Type} {table : NameMap α} {name : String} :
    name ∈ table.names ↔ table.contains name = true := by
  rw [NameMap.mem_names, NameMap.contains, Option.isSome_iff_exists]

section Views

variable (s : Store) (component : String)

theorem mem_behind_roots {scope : Scope} :
    scope.name ∈ behind s.roots component ↔ s.Lists scope component := by
  rw [roots, mem_behind_foldl]
  simp only [mem_names_iff_contains, NameMap.mem_entries]
  exact or_iff_right NameSet.not_mem_empty

/-! ### Each view by the scopes that list a component -/

theorem contains_roots : s.roots.contains component = true ↔ ∃ scope, s.Lists scope component := by
  rw [NameMap.contains]
  constructor
  · intro h
    obtain ⟨groups, hgroups⟩ := Option.isSome_iff_exists.1 h
    obtain ⟨name, hname⟩ := s.noneEmpty_roots component groups hgroups
    refine ⟨⟨name⟩, (s.mem_behind_roots component).1 ?_⟩
    rw [behind, hgroups]
    exact hname
  · rintro ⟨scope, h⟩
    have hmem := (s.mem_behind_roots component).2 h
    cases hgroups : s.roots.find? component with
    | none =>
      rw [behind, hgroups] at hmem
      exact absurd hmem NameSet.not_mem_empty
    | some groups => rfl

theorem exists_lists : (∃ scope, s.Lists scope component) ↔
    ∃ w ∈ s.winners.values, w.components.contains component = true := by
  constructor
  · rintro ⟨scope, w, hw, hlists⟩
    exact ⟨w, NameMap.mem_values.2 ⟨scope.name, hw⟩, hlists⟩
  · rintro ⟨w, hmem, hlists⟩
    obtain ⟨name, hw⟩ := NameMap.mem_values.1 hmem
    exact ⟨⟨name⟩, w, hw, hlists⟩

theorem isRoot_eq_true : s.isRoot component = true ↔ ∃ scope, s.Lists scope component := by
  rw [exists_lists, isRoot, List.any_eq_true]

theorem effective_eq_ofWinners : s.effective = EffectiveSet.ofWinners s.winners.values :=
  EffectiveSet.ofWinners_of_samePlaces (EffectiveSet.samePlaces_inOrder _).symm

theorem merges_effective : EffectiveSet.Merges s.winners.values s.effective := by
  rw [effective_eq_ofWinners]
  exact EffectiveSet.merges_ofWinners _

theorem contains_effective :
    s.effective.versions.contains component = true ↔ ∃ scope, s.Lists scope component := by
  rw [effective_eq_ofWinners, EffectiveSet.contains_versions_ofWinners, exists_lists]

end Views

/-- The winner that decides on a component stands in the scope that it names. -/
theorem AtHome.decided {s : Store} (h : s.AtHome) {component : String}
    (hlisted : ∃ scope, s.Lists scope component) :
    ∃ source w c, s.winner? source = some w ∧ w.components.find? component = some c ∧
      s.effective.versions.find? component = some c.version ∧
      s.effective.sources.find? component = some source ∧
      ∀ scope other, s.winner? scope = some other →
        other.components.contains component = true → other.sequence ≤ w.sequence := by
  rw [exists_lists, ← EffectiveSet.isSome_deciding?_inOrder] at hlisted
  obtain ⟨⟨w, c⟩, hdecided⟩ := Option.isSome_iff_exists.1 hlisted
  have hdecides := EffectiveSet.decides_iff.2 hdecided
  obtain ⟨hversion, hsource⟩ := EffectiveSet.find?_ofWinners_iff.2 ⟨w, c, hdecides, rfl, rfl⟩
  rw [← effective_eq_ofWinners] at hversion hsource
  obtain ⟨name, hname⟩ := NameMap.mem_values.1 (EffectiveSet.mem_naming.1 hdecides.mem_naming).1
  have hw : s.winner? ⟨name⟩ = some w := hname
  have hhome : s.winner? w.scope = some w := by rw [h ⟨name⟩ w hw, hw]
  refine ⟨w.scope, w, c, hhome, hdecides.brings, hversion, hsource, ?_⟩
  intro scope other hother hnames
  exact hdecides.greatest other
    (EffectiveSet.mem_naming.2 ⟨NameMap.mem_values.2 ⟨scope.name, hother⟩, hnames⟩)

/-- The three views of a component agree, in every store that was opened and changed:

* It is among the effective components, some winner lists it, and the table has it, or none of this.
* The table has for it exactly the scopes whose winners list it, and at least one.
* Among the effective components it comes from one of those scopes, in the version of the winner
  there, whose place is the greatest of those of all these scopes. -/
theorem views_agree {s : Store} (h : s.Reachable) (component : String) :
    ((s.effective.versions.contains component = true ↔ s.isRoot component = true) ∧
      (s.isRoot component = true ↔ s.roots.contains component = true)) ∧
    (∀ groups, s.roots.find? component = some groups →
      groups.isEmpty = false ∧ ∀ scope : Scope, scope.name ∈ groups ↔ s.Lists scope component) ∧
    (s.effective.versions.contains component = true →
      ∃ groups source w c, s.roots.find? component = some groups ∧
        s.effective.sources.find? component = some source ∧ source.name ∈ groups ∧
        s.winner? source = some w ∧ w.components.find? component = some c ∧
        s.effective.versions.find? component = some c.version ∧
        ∀ (scope : Scope) other, scope.name ∈ groups → s.winner? scope = some other →
          other.sequence ≤ w.sequence) := by
  have htable (groups : NameSet) (hgroups : s.roots.find? component = some groups) (scope : Scope) :
      scope.name ∈ groups ↔ s.Lists scope component := by
    rw [← mem_behind_roots, behind, hgroups, Option.getD_some]
  refine ⟨⟨?_, ?_⟩, fun groups hgroups => ⟨?_, htable groups hgroups⟩, fun hpresent => ?_⟩
  · rw [contains_effective, isRoot_eq_true]
  · rw [isRoot_eq_true, contains_roots]
  · obtain ⟨name, hname⟩ := s.noneEmpty_roots component groups hgroups
    exact List.isEmpty_eq_false_iff.2 (List.ne_nil_of_mem hname)
  · rw [contains_effective] at hpresent
    obtain ⟨source, w, c, hw, hc, hversion, hsource, hgreatest⟩ := h.atHome.decided hpresent
    obtain ⟨groups, hgroups⟩ := Option.isSome_iff_exists.1 ((s.contains_roots component).2 hpresent)
    refine ⟨groups, source, w, c, hgroups, hsource, ?_, hw, hc, hversion, ?_⟩
    · exact (htable groups hgroups source).2 ⟨w, hw, EffectiveSet.contains_of_find? hc⟩
    · intro scope other hscope hother
      obtain ⟨other', hother', hnames⟩ := (htable groups hgroups scope).1 hscope
      rw [hother] at hother'
      cases hother'
      exact hgreatest scope other hother hnames

/-- Of two winners that list a component, the one accepted last decides on it. -/
theorem views_agree_on_shared :
    let first : Winner :=
      ⟨⟨"thinggroup/a"⟩, "d", "thinggroup/a", 1, 0, .ofList [("c", ⟨"1.0.0", "thinggroup/a", "d"⟩)]⟩
    let second : Winner :=
      ⟨⟨"thinggroup/b"⟩, "e", "thinggroup/b", 1, 0, .ofList [("c", ⟨"2.0.0", "thinggroup/b", "e"⟩)]⟩
    let opened : Store := ⟨.empty, 7⟩
    let s := (opened.accept first.scope first).accept second.scope second
    s.Reachable ∧ s.isRoot "c" = true ∧ s.effective.versions.contains "c" = true ∧
    ∃ groups w, s.roots.find? "c" = some groups ∧
      first.scope.name ∈ groups ∧ second.scope.name ∈ groups ∧
      s.effective.sources.find? "c" = some second.scope ∧ s.winner? second.scope = some w ∧
      w.sequence = 8 ∧ s.effective.versions.find? "c" = some "2.0.0" ∧
      ∀ (scope : Scope) other, scope.name ∈ groups → s.winner? scope = some other →
        other.sequence ≤ w.sequence := by
  intro first second opened s
  have hopened : opened.Reachable :=
    .opened (ofContent_toBytes (s := opened) (by decide) Snapshot.fileName)
  have hreachable : s.Reachable := by
    refine (hopened.accept (by decide) fun _ hcurrent => nomatch hcurrent).accept (by decide) ?_
    intro current hcurrent
    rw [winner?_accept_of_ne _ (by decide)] at hcurrent
    cases hcurrent
  have hlisted : s.isRoot "c" = true := by decide +kernel
  have hsource : s.effective.sources.find? "c" = some second.scope := by
    rw [effective_eq_ofWinners]
    refine (EffectiveSet.find?_ofWinners_iff.2
      ⟨(opened.accept first.scope first).seat second.scope second,
        ⟨"2.0.0", "thinggroup/b", "e"⟩, ?_, rfl, rfl⟩).2
    exact ⟨by decide +kernel, by decide +kernel, by decide +kernel⟩
  obtain ⟨⟨hroot, -⟩, htable, hdecided⟩ := views_agree hreachable "c"
  have hpresent := hroot.2 hlisted
  obtain ⟨groups, source, w, c, hgroups, hfrom, -, hw, hc, hversion, hgreatest⟩ := hdecided hpresent
  rw [hsource] at hfrom
  cases hfrom
  have hfirst : s.winner? first.scope = some { first with sequence := 7 } := by decide +kernel
  have hsecond : s.winner? second.scope = some { second with sequence := 8 } := by decide +kernel
  have hscopes := (htable groups hgroups).2
  cases hsecond.symm.trans hw
  cases hc
  exact ⟨hreachable, hlisted, hpresent, groups, _, hgroups,
    (hscopes first.scope).2 ⟨_, hfirst, by decide +kernel⟩,
    (hscopes second.scope).2 ⟨_, hsecond, by decide +kernel⟩,
    hsource, hw, rfl, hversion, hgreatest⟩

end Rollout.Store
