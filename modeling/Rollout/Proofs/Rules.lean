import Mathlib.Data.List.DropRight
import Mathlib.Data.List.TakeWhile
import Mathlib.Tactic.SplitIfs
import Rollout.Document.Basic
import Rollout.Document.Builder
import Rollout.Proofs.Text.Order

/-!
# What makes a request a document

The rules for a request stand in a list (`Request.rules`), and a request is accepted exactly if it
breaks none of them, which is to say that it is well formed.  Otherwise the first broken rule of the
list is reported (`Request.build_follows_rules`).  Nothing here depends on what `Version.parse`
takes for a version.
-/

namespace Rollout

/-! ### Blank texts -/

namespace Text

/-- A text without the white space at both of its ends. -/
def trimmed (text : String) : List Char := (dropSpace text.toList).rdropWhile isSpace

def Blank (text : String) : Prop := trimmed text = []

theorem isBlank_iff {text : String} : isBlank text = true ↔ Blank text := by
  rw [isBlank_eq_true, Blank, trimmed, dropSpace, List.rdropWhile_eq_nil_iff]
  constructor
  · intro h c hc
    exact h c ((List.dropWhile_suffix _).subset hc)
  · intro h c hc
    -- what stands before the first other character is white space anyhow
    rw [← List.takeWhile_append_dropWhile (p := isSpace) (l := text.toList)] at hc
    rcases List.mem_append.1 hc with hc | hc
    · exact List.mem_takeWhile_imp hc
    · exact h c hc

end Text

/-! ### Rules -/

/-- What is asked of a request. -/
inductive Rule where
  | id
  | target
  | createdAt
  | onBehalfOf
  | parent
  | name (component : String)
  | version (component version : String)
  deriving DecidableEq

/-- How a message begins that tells of a broken rule. -/
def Rule.subject : Rule → String
  | .id => "deploymentId"
  | .target => "targetGroup"
  | .createdAt => "creationTimestamp"
  | .onBehalfOf => "onBehalfOf"
  | .parent => "parentGroup"
  | .name _ => "component name"
  | .version component text =>
    "component '" ++ component ++ "' has invalid version '" ++ text ++ "'"

namespace Request

/-- Whether a request breaks a rule, and what is to be said of it. -/
inductive Breaks (r : Request) : Rule → Violation → Prop
  | id (h : Text.Blank r.id) : Breaks r .id .blankId
  | target (h : Text.Blank r.target) : Breaks r .target .blankTarget
  | createdAt (h : r.createdAt.toInt < 0) : Breaks r .createdAt (.negativeCreation r.createdAt)
  | onBehalfOf {scope : String} (hset : r.onBehalfOf = some scope) (h : Text.Blank scope) :
    Breaks r .onBehalfOf .blankOnBehalfOf
  | parent (h : r.parent = some r.target) : Breaks r .parent (.parentIsTarget r.target)
  | name {component : String} (h : Text.Blank component) :
    Breaks r (.name component) .blankComponent
  | version {component version : String} {error : Version.Error}
    (h : Version.parse version = .error error) :
    Breaks r (.version component version) (.badVersion component version error)

theorem Breaks.message_eq {r : Request} {rule : Rule} {v : Violation} (h : r.Breaks rule v) :
    ∃ reason, v.message = rule.subject ++ reason := by
  cases h with
  | id => exact ⟨" must not be empty", rfl⟩
  | target => exact ⟨" must not be empty", rfl⟩
  | createdAt =>
    refine ⟨" must not be negative, got " ++ toString r.createdAt.toInt, ?_⟩
    rw [← String.append_assoc]
    rfl
  | onBehalfOf => exact ⟨" must not be empty when set", rfl⟩
  | parent =>
    refine ⟨" '" ++ (r.target ++ "' cannot be the target group itself"), ?_⟩
    show "parentGroup '" ++ r.target ++ "' cannot be the target group itself" = _
    rw [← String.append_assoc, String.append_assoc]
    rfl
  | name => exact ⟨" must not be empty", rfl⟩
  | @version component text error =>
    refine ⟨": " ++ error.message, ?_⟩
    show "component '" ++ component ++ "' has invalid version '" ++ text ++ ("'" ++ ": ") ++
      error.message = _
    simp only [Rule.subject, String.append_assoc]

/-- The rules for the fields other than the components. -/
def fieldRules : List Rule := [.id, .target, .createdAt, .onBehalfOf, .parent]

def componentRules (c : String × String) : List Rule := [.name c.1, .version c.1 c.2]

/-- The rules for a request, in the order in which they count. -/
def rules (r : Request) : List Rule := fieldRules ++ r.components.entries.flatMap componentRules

/-- Whether a request breaks a rule and none of those before it. -/
def BreaksFirst (r : Request) (rule : Rule) (v : Violation) : Prop :=
  ∃ before after, r.rules = before ++ rule :: after ∧ r.Breaks rule v ∧
    ∀ earlier ∈ before, ∀ v', ¬r.Breaks earlier v'

theorem BreaksFirst.breaks {r : Request} {rule : Rule} {v : Violation} (h : r.BreaksFirst rule v) :
    r.Breaks rule v := by
  obtain ⟨-, -, -, hbreaks, -⟩ := h
  exact hbreaks

/-- Whether the fields of a request are as those of a document have to be. -/
structure WellFormed (r : Request) : Prop where
  id : ¬Text.Blank r.id
  target : ¬Text.Blank r.target
  createdAt : 0 ≤ r.createdAt.toInt
  onBehalfOf : ∀ scope, r.onBehalfOf = some scope → ¬Text.Blank scope
  parent : ∀ group, r.parent = some group → group ≠ r.target
  components : ∀ name version, r.components.find? name = some version →
    ¬Text.Blank name ∧ ∃ v, Version.parse version = .ok v

theorem mem_rules {r : Request} {rule : Rule} : rule ∈ r.rules ↔
    rule ∈ fieldRules ∨
      ∃ component version, r.components.find? component = some version ∧
        (rule = .name component ∨ rule = .version component version) := by
  rw [rules, List.mem_append, List.mem_flatMap, Prod.exists]
  simp only [componentRules, List.mem_pair, NameMap.mem_entries]

theorem name_mem_rules {r : Request} {component : String} :
    .name component ∈ r.rules ↔ ∃ version, r.components.find? component = some version := by
  simp [mem_rules, fieldRules]

theorem version_mem_rules {r : Request} {component version : String} :
    .version component version ∈ r.rules ↔ r.components.find? component = some version := by
  simp [mem_rules, fieldRules]

theorem wellFormed_iff {r : Request} :
    r.WellFormed ↔ ∀ rule ∈ r.rules, ∀ v, ¬r.Breaks rule v := by
  constructor
  · intro h rule hrule v hbreaks
    cases hbreaks with
    | id hblank => exact h.id hblank
    | target hblank => exact h.target hblank
    | createdAt hnegative => exact absurd h.createdAt (Int.not_le.2 hnegative)
    | onBehalfOf hset hblank => exact h.onBehalfOf _ hset hblank
    | parent hparent => exact h.parent _ hparent rfl
    | name hblank =>
      obtain ⟨version, hfind⟩ := name_mem_rules.1 hrule
      exact (h.components _ _ hfind).1 hblank
    | version herror =>
      obtain ⟨v, hok⟩ := (h.components _ _ (version_mem_rules.1 hrule)).2
      rw [herror] at hok
      cases hok
  · intro h
    have hfield (rule : Rule) (hrule : rule ∈ fieldRules) {v : Violation} :
        ¬r.Breaks rule v := h rule (mem_rules.2 (.inl hrule)) v
    refine ⟨?_, ?_, ?_, ?_, ?_, ?_⟩
    · exact fun hblank => hfield .id (by decide) (.id hblank)
    · exact fun hblank => hfield .target (by decide) (.target hblank)
    · exact Int.not_lt.1 fun hnegative => hfield .createdAt (by decide) (.createdAt hnegative)
    · exact fun scope hset hblank => hfield .onBehalfOf (by decide) (.onBehalfOf hset hblank)
    · rintro group hparent rfl
      exact hfield .parent (by decide) (.parent hparent)
    · intro name version hfind
      refine ⟨fun hblank => h _ (name_mem_rules.2 ⟨version, hfind⟩) _ (.name hblank), ?_⟩
      cases hversion : Version.parse version with
      | ok v => exact ⟨v, rfl⟩
      | error error =>
        exact absurd (.version hversion) (h _ (version_mem_rules.2 hfind) _)

/-! ### Checking the rules -/

def finding? (r : Request) : Rule → Option Violation
  | .id => if Text.isBlank r.id then some .blankId else none
  | .target => if Text.isBlank r.target then some .blankTarget else none
  | .createdAt => if r.createdAt < 0 then some (.negativeCreation r.createdAt) else none
  | .onBehalfOf => if r.onBehalfOf.any Text.isBlank then some .blankOnBehalfOf else none
  | .parent => if r.parent = some r.target then some (.parentIsTarget r.target) else none
  | .name component => if Text.isBlank component then some .blankComponent else none
  | .version component version =>
    match Version.parse version with
    | .ok _ => none
    | .error error => some (.badVersion component version error)

theorem finding?_eq_some {r : Request} {rule : Rule} {v : Violation} :
    r.finding? rule = some v ↔ r.Breaks rule v := by
  have hnegative : r.createdAt < 0 ↔ r.createdAt.toInt < 0 := Int64.lt_iff_toInt_lt
  constructor
  · intro h
    cases rule with
    | id =>
      obtain ⟨hblank, ⟨⟩⟩ := Option.ite_none_right_eq_some.1 h
      exact .id (Text.isBlank_iff.1 hblank)
    | target =>
      obtain ⟨hblank, ⟨⟩⟩ := Option.ite_none_right_eq_some.1 h
      exact .target (Text.isBlank_iff.1 hblank)
    | createdAt =>
      obtain ⟨hlt, ⟨⟩⟩ := Option.ite_none_right_eq_some.1 h
      exact .createdAt (hnegative.1 hlt)
    | onBehalfOf =>
      obtain ⟨hany, ⟨⟩⟩ := Option.ite_none_right_eq_some.1 h
      obtain ⟨scope, hset, hblank⟩ := (Option.any_eq_true _ _).1 hany
      exact .onBehalfOf hset (Text.isBlank_iff.1 hblank)
    | parent =>
      obtain ⟨hparent, ⟨⟩⟩ := Option.ite_none_right_eq_some.1 h
      exact .parent hparent
    | name component =>
      obtain ⟨hblank, ⟨⟩⟩ := Option.ite_none_right_eq_some.1 h
      exact .name (Text.isBlank_iff.1 hblank)
    | version component version =>
      rw [finding?] at h
      split at h
      · cases h
      · rename_i error herror
        cases h
        exact .version herror
  · intro h
    cases h with
    | id hblank => exact if_pos (Text.isBlank_iff.2 hblank)
    | target hblank => exact if_pos (Text.isBlank_iff.2 hblank)
    | createdAt hlt => exact if_pos (hnegative.2 hlt)
    | onBehalfOf hset hblank =>
      exact if_pos (by rw [hset]; exact Text.isBlank_iff.2 hblank)
    | parent hparent => exact if_pos hparent
    | name hblank => exact if_pos (Text.isBlank_iff.2 hblank)
    | version herror => rw [finding?, herror]

theorem finding?_eq_none {r : Request} {rule : Rule} :
    r.finding? rule = none ↔ ∀ v, ¬r.Breaks rule v := by
  simp only [← finding?_eq_some]
  exact Option.eq_none_iff_forall_ne_some

theorem findSome?_componentRules (r : Request) (c : String × String) :
    (componentRules c).findSome? r.finding? = componentViolation? c.1 c.2 := by
  rw [componentRules, List.findSome?_cons, List.findSome?_cons, List.findSome?_nil, finding?,
    finding?, componentViolation?]
  cases Text.isBlank c.1 with
  | true => rfl
  | false => cases Version.parse c.2 <;> rfl

theorem findSome?_flatMap_componentRules (r : Request) (entries : List (String × String)) :
    (entries.flatMap componentRules).findSome? r.finding? =
      entries.findSome? fun c => componentViolation? c.1 c.2 := by
  induction entries with
  | nil => rfl
  | cons c rest ih =>
    rw [List.flatMap_cons, List.findSome?_append, List.findSome?_cons, ih,
      findSome?_componentRules]
    cases componentViolation? c.1 c.2 <;> rfl

theorem violation?_eq_findSome? (r : Request) : r.violation? = r.rules.findSome? r.finding? := by
  have hfields (rest : List Rule) :
      (fieldRules ++ rest).findSome? r.finding? =
        if Text.isBlank r.id then some .blankId
        else if Text.isBlank r.target then some .blankTarget
        else if r.createdAt < 0 then some (.negativeCreation r.createdAt)
        else if r.onBehalfOf.any Text.isBlank then some .blankOnBehalfOf
        else if r.parent = some r.target then some (.parentIsTarget r.target)
        else rest.findSome? r.finding? := by
    simp only [fieldRules, List.cons_append, List.nil_append, List.findSome?_cons, finding?]
    split_ifs <;> rfl
  rw [rules, hfields, findSome?_flatMap_componentRules, violation?]

theorem violation?_eq_some {r : Request} {v : Violation} :
    r.violation? = some v ↔ ∃ rule, r.BreaksFirst rule v := by
  rw [violation?_eq_findSome?, List.findSome?_eq_some_iff]
  constructor
  · rintro ⟨before, rule, after, hrules, hbroken, hbefore⟩
    exact ⟨rule, before, after, hrules, finding?_eq_some.1 hbroken,
      fun earlier hearlier => finding?_eq_none.1 (hbefore earlier hearlier)⟩
  · rintro ⟨rule, before, after, hrules, hbroken, hbefore⟩
    exact ⟨before, rule, after, hrules, finding?_eq_some.2 hbroken,
      fun earlier hearlier => finding?_eq_none.2 (hbefore earlier hearlier)⟩

theorem violation?_eq_none {r : Request} : r.violation? = none ↔ r.WellFormed := by
  rw [violation?_eq_findSome?, List.findSome?_eq_none_iff, wellFormed_iff]
  exact forall₂_congr fun _ _ => finding?_eq_none

/-! ### Putting a request together -/

def settings (r : Request) : List Setting :=
  r.onBehalfOf.toList.map .onBehalfOf ++ r.parent.toList.map .parent ++
    [.createdAt r.createdAt, .revision r.revision] ++
    r.components.entries.map (fun c => .component c.1 c.2) ++ r.capabilities.map .capability

theorem foldl_set_component (entries : List (String × String)) (r : Request) :
    (entries.map fun c => Setting.component c.1 c.2).foldl set r =
      { r with components := r.components.insertAll entries } := by
  induction entries generalizing r with
  | nil => rfl
  | cons c rest ih => exact ih _

theorem foldl_set_capability (names : List String) (r : Request) :
    (names.map Setting.capability).foldl set r =
      { r with capabilities := r.capabilities ++ names } := by
  induction names generalizing r with
  | nil => rw [List.append_nil]; rfl
  | cons name rest ih =>
    rw [List.map_cons, List.foldl_cons, ih]
    simp [set]

/-- Every request can be put together. -/
theorem assembled_settings (r : Request) : assembled r.id r.target r.settings = r := by
  obtain ⟨id, target, onBehalfOf, parent, createdAt, revision, components, capabilities⟩ := r
  have hcomponents : NameMap.empty.insertAll components.entries = components :=
    NameMap.ofList_entries components
  simp only [assembled, settings, List.foldl_append, foldl_set_component, foldl_set_capability]
  cases onBehalfOf <;> cases parent <;> simp [named, set, hcomponents]

end Request

/-! ### Documents -/

structure Document.Carries (d : Document) (r : Request) : Prop where
  id : d.id = r.id
  target : d.target = r.target
  onBehalfOf : d.onBehalfOf.map Scope.name = r.onBehalfOf
  parent : d.parent = r.parent
  createdAt : d.createdAt = r.createdAt
  revision : d.revision = r.revision
  components : d.components = r.components
  /-- The capabilities become a set. -/
  capabilities : ∀ name, name ∈ d.capabilities ↔ name ∈ r.capabilities

namespace Request

theorem content_carries (r : Request) : r.content.Carries r where
  id := rfl
  target := rfl
  onBehalfOf := by
    show (r.onBehalfOf.map Scope.mk).map Scope.name = r.onBehalfOf
    rw [Option.map_map]
    exact Option.map_id'
  parent := rfl
  createdAt := rfl
  revision := rfl
  components := rfl
  capabilities _ := NameSet.mem_ofList

theorem build_eq_ok {r : Request} {d : Document} :
    r.build = .ok d ↔ r.WellFormed ∧ d = r.content := by
  rw [← violation?_eq_none, ← check_eq_ok, build]
  cases r.check with
  | ok _ => simp [Except.mapError]
  | error _ => simp [Except.mapError]

theorem build_eq_error {r : Request} {failure : Failure} :
    r.build = .error failure ↔ ∃ rule v, r.BreaksFirst rule v ∧ failure = .invalid v.message := by
  have hbuild : r.build = .error failure ↔
      ∃ v, r.violation? = some v ∧ failure = .invalid v.message := by
    simp only [← check_eq_error]
    rw [build]
    cases r.check with
    | ok _ => simp [Except.mapError]
    | error _ => simp [Except.mapError, eq_comm]
  rw [hbuild]
  constructor
  · rintro ⟨v, hviolation, hfailure⟩
    obtain ⟨rule, hfirst⟩ := violation?_eq_some.1 hviolation
    exact ⟨rule, v, hfirst, hfailure⟩
  · rintro ⟨rule, v, hfirst, hfailure⟩
    exact ⟨v, violation?_eq_some.2 ⟨rule, hfirst⟩, hfailure⟩

/-- A request is accepted exactly if it is well formed, and the document then has its fields.
Otherwise the first rule that it breaks is reported, in a message that begins with what the rule is
about; the components come in the order of the bytes of their names.  It makes no difference whether
the request was put together, as every request can be, or read from a text. -/
theorem build_follows_rules (r : Request) :
    ((∃ d, r.build = .ok d) ↔ r.WellFormed) ∧
    (∀ d, r.build = .ok d → d.Carries r) ∧
    (∀ failure, r.build = .error failure ↔ ∃ rule v reason, r.BreaksFirst rule v ∧
      failure = .invalid v.message ∧ v.message = rule.subject ++ reason) ∧
    (r.components.entries.Pairwise fun a b => Text.encode a.1 < Text.encode b.1) ∧
    (∃ settings, assembled r.id r.target settings = r) ∧
    ∀ text, Shaped.parse text = .ok r → Document.parse text = r.build := by
  refine ⟨?_, ?_, fun failure => ⟨fun hfailure => ?_, ?_⟩, ?_, ⟨_, assembled_settings r⟩, ?_⟩
  · simp [build_eq_ok]
  · intro d hd
    obtain ⟨-, rfl⟩ := build_eq_ok.1 hd
    exact content_carries r
  · obtain ⟨rule, v, hfirst, hmessage⟩ := build_eq_error.1 hfailure
    obtain ⟨reason, hreason⟩ := hfirst.breaks.message_eq
    exact ⟨rule, v, reason, hfirst, hmessage, hreason⟩
  · rintro ⟨rule, v, reason, hfirst, hmessage, -⟩
    exact build_eq_error.2 ⟨rule, v, hfirst, hmessage⟩
  · exact r.components.sorted.imp Text.encode_lt
  · intro text htext
    rw [Document.parse, htext]
    rfl

/-- Of two bad versions the one is reported whose component has the lesser bytes. -/
theorem build_follows_rules_on_two_versions :
    let r : Request := { named "d" "g" with components := .ofList [("é", "latest"), ("z", "1")] }
    let v : Violation := .badVersion "z" "1" (.unexpectedEnd .major)
    r.build = .error (.invalid v.message) ∧
      ∃ rule v', r.BreaksFirst rule v' ∧ v'.message = v.message := by
  refine ⟨rfl, ?_⟩
  obtain ⟨-, -, herror, -⟩ := build_follows_rules
    { named "d" "g" with components := .ofList [("é", "latest"), ("z", "1")] }
  obtain ⟨rule, v', -, hfirst, hmessage, -⟩ := (herror _).1 rfl
  exact ⟨rule, v', hfirst, (Failure.invalid.inj hmessage).symm⟩

end Request
end Rollout
