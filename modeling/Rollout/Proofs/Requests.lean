import Rollout.Document.Basic
import Rollout.Proofs.Shape.Accepted
import Rollout.Proofs.Shape.RoundTrip

/-!
# Which texts are requests

A request may be written as an object or as an array.  For every spelling of a JSON value it is told
here, field by field, whether a request is read from it and which one: `Field.Tells` relates the
values that are given for a field, of which there may be one at most, to what the request has in
that field.  An object gives a field the values of the members with one of its names, an array the
item at its position.
-/

namespace Rollout

namespace Request

/-! ### Fields -/

/-- The fields of a request. -/
inductive Field where
  | id
  | target
  | onBehalfOf
  | parent
  | createdAt
  | revision
  | components
  | capabilities
  deriving DecidableEq, Repr

namespace Field

/-- The names of a field in an object. -/
def names : Field → List String
  | id => ["deploymentId", "id"]
  | target => ["targetGroup", "groupName"]
  | onBehalfOf => ["onBehalfOf", "onBehalfOfScope"]
  | parent => ["parentGroup"]
  | createdAt => ["creationTimestamp", "timestamp"]
  | revision => ["revision"]
  | components => ["components", "componentSpecification"]
  | capabilities => ["requiredCapabilities"]

/-- The position of a field in an array. -/
def position : Field → Nat
  | id => 0
  | target => 1
  | onBehalfOf => 2
  | parent => 3
  | createdAt => 4
  | revision => 5
  | components => 6
  | capabilities => 7

/-- The JSON values that can be given for a field. -/
def HasType : Field → Json → Prop
  | id, json | target, json => ∃ s, json = .string s
  | onBehalfOf, json | parent, json => json = .null ∨ ∃ s, json = .string s
  | createdAt, json =>
    ∃ i, json = .int i ∧ Int64.minValue.toInt ≤ i ∧ i ≤ Int64.maxValue.toInt
  | revision, json => ∃ i, json = .int i ∧ 0 ≤ i ∧ i < UInt64.size
  | components, json => ∃ entries : List (String × String),
    json = .object (entries.map fun e => (e.1, .string e.2))
  | capabilities, json => ∃ texts : List String, json = .array (texts.map .string)

/-- Whether a JSON value says what a request has in a field.  Of the components of one name the last
one counts. -/
def Says : Field → Json → Request → Prop
  | id, json, r => json = .string r.id
  | target, json, r => json = .string r.target
  | onBehalfOf, json, r => json = r.onBehalfOf.elim .null .string
  | parent, json, r => json = r.parent.elim .null .string
  | createdAt, json, r => json = .int r.createdAt.toInt
  | revision, json, r => json = .int r.revision.toNat
  | components, json, r => ∃ entries : List (String × String),
    json = .object (entries.map fun e => (e.1, .string e.2)) ∧
      ∀ name, r.components.find? name = entries.reverse.lookup name
  | capabilities, json, r => json = .array (r.capabilities.map .string)

/-- Whether a request has in a field what is assumed where nothing is given. -/
def Unsaid : Field → Request → Prop
  | id, r => r.id = ""
  | target, r => r.target = ""
  | onBehalfOf, r => r.onBehalfOf = none
  | parent, r => r.parent = none
  | createdAt, r => r.createdAt = 0
  | revision, r => r.revision = 0
  | components, r => r.components = .empty
  | capabilities, r => r.capabilities = []

/-- Whether the values given for a field tell what a request has in it: nothing is given or one
value that says it. -/
inductive Tells (f : Field) : List Json → Request → Prop
  | nothing {r : Request} (h : f.Unsaid r) : Tells f [] r
  | value {json : Json} {r : Request} (h : f.Says json r) : Tells f [json] r

/-- The values that the members of an object give for a field. -/
def valuesIn (f : Field) (members : List (String × Json)) : List Json :=
  Json.valuesOf f.names members

/-! ### Fields and their shapes -/

@[reducible] def shape : Field → Shape
  | id | target => .text
  | onBehalfOf | parent => .optional .text
  | createdAt => .int64
  | revision => .uint64
  | components => .table .text
  | capabilities => .sequence .text

/-- What a request has in a field. -/
def value : (f : Field) → Request → f.shape.Carrier
  | id, r => r.id
  | target, r => r.target
  | onBehalfOf, r => r.onBehalfOf
  | parent, r => r.parent
  | createdAt, r => r.createdAt
  | revision, r => r.revision
  | components, r => r.components
  | capabilities, r => r.capabilities

/-- What is assumed in a field where nothing is given. -/
def standard (f : Field) : f.shape.Carrier := f.value (.named "" "")

/-- A property of all fields, as a layout lists them: one after another, and nothing behind them. -/
theorem listed_iff {p : Field → Prop} :
    p .id ∧ p .target ∧ p .onBehalfOf ∧ p .parent ∧ p .createdAt ∧ p .revision ∧ p .components ∧
      p .capabilities ∧ True ↔ ∀ f, p f := by
  constructor
  · rintro ⟨hid, htarget, honBehalfOf, hparent, hcreatedAt, hrevision, hcomponents, hcapabilities,
      -⟩ f
    cases f <;> assumption
  · intro h
    exact ⟨h .id, h .target, h .onBehalfOf, h .parent, h .createdAt, h .revision, h .components,
      h .capabilities, trivial⟩

theorem unsaid_iff (f : Field) {r : Request} : f.Unsaid r ↔ f.value r = f.standard := by
  cases f <;> exact Iff.rfl

theorem says_iff (f : Field) {json : Json} {r : Request} :
    f.Says json r ↔ f.shape.ofJson json = .ok (f.value r) := by
  cases f with
  | id | target => exact Shape.ofJson_text.symm
  | onBehalfOf | parent => exact Shape.ofJson_optional_text.symm
  | createdAt => exact Shape.ofJson_int64.symm
  | revision => exact Shape.ofJson_uint64.symm
  | components =>
    refine (exists_congr fun entries => and_congr_right fun _ => ?_).trans Shape.ofJson_table.symm
    exact NameMap.ofList_eq_iff.symm
  | capabilities => exact Shape.ofJson_texts.symm

theorem hasType_iff (f : Field) {json : Json} :
    f.HasType json ↔ ∃ x, f.shape.ofJson json = .ok x := by
  cases f with
  | id | target => exact exists_congr fun _ => Shape.ofJson_text.symm
  | onBehalfOf | parent =>
    refine Iff.trans ?_ (exists_congr fun _ => Shape.ofJson_optional_text.symm)
    exact (Option.exists (p := fun text => json = text.elim .null .string)).symm
  | createdAt =>
    refine Iff.trans ⟨?_, ?_⟩ (exists_congr fun _ => Shape.ofJson_int64.symm)
    · rintro ⟨i, rfl, hleast, hgreatest⟩
      have hfits : i < 2 ^ 63 := Int.lt_of_le_of_lt hgreatest (by decide)
      exact ⟨Int64.ofInt i, by rw [Int64.toInt_ofInt_of_le hleast hfits]⟩
    · rintro ⟨x, rfl⟩
      exact ⟨x.toInt, rfl, x.minValue_le_toInt, x.toInt_le⟩
  | revision =>
    refine Iff.trans ⟨?_, ?_⟩ (exists_congr fun _ => Shape.ofJson_uint64.symm)
    · rintro ⟨i, rfl, hleast, hgreatest⟩
      obtain ⟨n, rfl⟩ := Int.eq_ofNat_of_zero_le hleast
      exact ⟨UInt64.ofNat n, by rw [UInt64.toNat_ofNat_of_lt' (Int.ofNat_lt.1 hgreatest)]⟩
    · rintro ⟨x, rfl⟩
      exact ⟨x.toNat, rfl, Int.natCast_nonneg _, Int.ofNat_lt.2 x.toNat_lt_size⟩
  | components =>
    refine Iff.trans ⟨?_, ?_⟩ (exists_congr fun _ => Shape.ofJson_table.symm)
    · rintro ⟨entries, h⟩
      exact ⟨NameMap.ofList entries, entries, h, rfl⟩
    · rintro ⟨_, entries, h, -⟩
      exact ⟨entries, h⟩
  | capabilities => exact exists_congr fun _ => Shape.ofJson_texts.symm

end Field

/-! ### Requests from the values of their fields -/

section Values

variable {values : (f : Field) → Option f.shape.Carrier}

/-- The values that are known of the fields, in the order of the layout. -/
def draft (values : (f : Field) → Option f.shape.Carrier) : layout.Draft :=
  (values .id, values .target, values .onBehalfOf, values .parent, values .createdAt,
    values .revision, values .components, values .capabilities, ())

theorem draft_surjective : Function.Surjective draft
  | (id, target, onBehalfOf, parent, createdAt, revision, components, capabilities, ()) =>
    ⟨fun
      | .id => id
      | .target => target
      | .onBehalfOf => onBehalfOf
      | .parent => parent
      | .createdAt => createdAt
      | .revision => revision
      | .components => components
      | .capabilities => capabilities, rfl⟩

/-- The request of which these values are known. -/
def ofValues (values : (f : Field) → Option f.shape.Carrier) : Request :=
  Shaped.ofCarrier (draft values)

theorem value_ofValues (f : Field) : f.value (ofValues values) = (values f).getD f.standard := by
  cases f with
  | onBehalfOf =>
    show (values .onBehalfOf).join = _
    cases values .onBehalfOf <;> rfl
  | parent =>
    show (values .parent).join = _
    cases values .parent <;> rfl
  | _ => rfl

theorem ext_value {r r' : Request} (h : ∀ f : Field, f.value r = f.value r') : r = r' := by
  cases r
  cases r'
  rw [mk.injEq]
  exact ⟨h .id, h .target, h .onBehalfOf, h .parent, h .createdAt, h .revision, h .components,
    h .capabilities⟩

theorem Field.tells_iff (f : Field) {given : List Json} {r : Request} :
    f.Tells given r ↔
      ∃ value?, f.shape.Fills none given value? ∧ value?.getD f.standard = f.value r := by
  constructor
  · intro h
    cases h with
    | nothing h => exact ⟨none, .kept, (f.unsaid_iff.1 h).symm⟩
    | value h => exact ⟨some (f.value r), .given (f.says_iff.1 h), rfl⟩
  · rintro ⟨value?, hfills, hvalue⟩
    cases hfills with
    | kept => exact .nothing (f.unsaid_iff.2 hvalue.symm)
    | given h =>
      refine .value (f.says_iff.2 ?_)
      rw [h]
      exact congrArg Except.ok hvalue

/-- Values for all fields make a request exactly if each field is told by what is given for it. -/
theorem exists_values_iff {given : Field → List Json} {r : Request} :
    (∃ values : (f : Field) → Option f.shape.Carrier,
      (∀ f : Field, f.shape.Fills none (given f) (values f)) ∧ ofValues values = r) ↔
      ∀ f : Field, f.Tells (given f) r := by
  simp only [Field.tells_iff]
  -- the fields do not depend on each other, so their values can be chosen one by one
  rw [Classical.skolem]
  refine exists_congr fun values => ?_
  rw [forall_and]
  refine and_congr_right fun _ => ⟨?_, fun h => ext_value fun f => ?_⟩
  · rintro rfl f
    exact (value_ofValues f).symm
  · rw [value_ofValues, h]

/-- There is a request exactly if at most one value is given for each field, one of its type. -/
theorem exists_told_iff {given : Field → List Json} :
    (∃ r : Request, ∀ f : Field, f.Tells (given f) r) ↔
      ∀ f : Field, (given f).length ≤ 1 ∧ ∀ json ∈ given f, f.HasType json := by
  simp only [← exists_values_iff]
  have hfills (f : Field) : (given f).length ≤ 1 ∧ (∀ json ∈ given f, f.HasType json) ↔
      ∃ value?, f.shape.Fills none (given f) value? := by
    simp only [f.hasType_iff, Shape.exists_fills_iff]
  rw [forall_congr' hfills, Classical.skolem]
  constructor
  · rintro ⟨_, values, h, -⟩
    exact ⟨values, h⟩
  · rintro ⟨values, h⟩
    exact ⟨_, values, h, rfl⟩

end Values

/-! ### Requests from JSON values -/

theorem finish_draft (d : layout.Draft) : layout.finish d = .ok d := by
  obtain ⟨values, rfl⟩ := draft_surjective d
  exact layout.finish_known (draft values)

theorem names_nodup : layout.allNames.Nodup := by decide

theorem filled_draft {members : List (String × Json)}
    {values : (f : Field) → Option f.shape.Carrier} :
    layout.Filled members layout.blank (draft values) ↔
      ∀ f : Field, f.shape.Fills none (f.valuesIn members) (values f) :=
  Field.listed_iff (p := fun f => f.shape.Fills none (f.valuesIn members) (values f))

theorem ofJson_object {members : List (String × Json)} {r : Request} :
    Shaped.ofJson (.object members) = .ok r ↔ ∀ f : Field, f.Tells (f.valuesIn members) r := by
  have hread : (Shaped.shape Request).ofJson (.object members) = _ :=
    Shape.ofJson_object "RawDeploymentDocument" false layout members
  rw [Shaped.ofJson, hread, Json.map_eq_ok, ← exists_values_iff]
  constructor
  · rintro ⟨d, hd, rfl⟩
    obtain ⟨d', hfold, hfinish⟩ := Json.bind_eq_ok.1 hd
    rw [finish_draft] at hfinish
    cases hfinish
    obtain ⟨values, rfl⟩ := draft_surjective d
    exact ⟨values, filled_draft.1 ((Layout.foldlM_take names_nodup false).1 hfold).1, rfl⟩
  · rintro ⟨values, hfills, rfl⟩
    have hfold := (Layout.foldlM_take names_nodup false).2
      ⟨filled_draft.2 hfills, fun h => absurd h Bool.false_ne_true⟩
    refine ⟨draft values, ?_, rfl⟩
    rw [hfold, Json.ok_bind, finish_draft]
    rfl

theorem filledInOrder_draft {items : List Json}
    {values : (f : Field) → Option f.shape.Carrier} :
    layout.FilledInOrder 0 items (draft values) ↔
      ∀ f : Field, f.shape.Fills none items[f.position]?.toList (values f) :=
  Field.listed_iff (p := fun f => f.shape.Fills none items[f.position]?.toList (values f))

theorem allOmittable_layout : layout.AllOmittable := by simp [Layout.AllOmittable]

theorem noneLeft_eq_ok {length : Nat} {rest : List Json} :
    noneLeft length rest = .ok () ↔ rest = [] := by
  rw [noneLeft]
  cases rest <;> simp

theorem ofJson_array {items : List Json} {r : Request} :
    Shaped.ofJson (.array items) = .ok r ↔
      items.length ≤ 8 ∧ ∀ f : Field, f.Tells items[f.position]?.toList r := by
  have hread : (Shaped.shape Request).ofJson (.array items) = _ :=
    Shape.ofJson_array "RawDeploymentDocument" false layout items
  rw [Shaped.ofJson, hread, Json.map_eq_ok, ← exists_values_iff]
  have hitems (values : (f : Field) → Option f.shape.Carrier) (left : List Json) :=
    layout.ofItems_iff (recordItemsDescription "RawDeploymentDocument" layout.size) items left
      allOmittable_layout 0 (draft values)
  constructor
  · rintro ⟨d, hd, rfl⟩
    obtain ⟨⟨d', left⟩, hof, hrest⟩ := Json.bind_eq_ok.1 hd
    obtain ⟨⟨⟩, hleft, heq⟩ := Json.bind_eq_ok.1 hrest
    cases heq
    obtain ⟨values, rfl⟩ := draft_surjective d
    obtain ⟨hfills, rfl⟩ := (hitems values left).1 hof
    refine ⟨List.drop_eq_nil_iff.1 (noneLeft_eq_ok.1 hleft), values, ?_, rfl⟩
    exact filledInOrder_draft.1 hfills
  · rintro ⟨hlength, values, hfills, rfl⟩
    have hof := (hitems values []).2
      ⟨filledInOrder_draft.2 hfills, (List.drop_eq_nil_of_le hlength).symm⟩
    refine ⟨draft values, ?_, rfl⟩
    rw [← List.drop_zero (l := items), hof]
    rfl

theorem ofJson_other {json : Json} (hobject : ∀ members, json ≠ .object members)
    (harray : ∀ items, json ≠ .array items) (r : Request) : Shaped.ofJson json ≠ .ok r := by
  intro h
  cases json with
  | object members => exact hobject members rfl
  | array items => exact harray items rfl
  | _ => cases h

/-! ### Members that say the same -/

/-- Whether the members of two objects say the same of a request: they may differ in their order, in
the choice among the names of a field, and in members that belong to no field. -/
inductive Restated : List (String × Json) → List (String × Json) → Prop
  | reordered {members members' : List (String × Json)} (h : members.Perm members') :
    Restated members members'
  | renamed {f : Field} {name name' : String} {json : Json} {members : List (String × Json)}
    (h : name ∈ f.names) (h' : name' ∈ f.names) :
    Restated ((name, json) :: members) ((name', json) :: members)
  | unknown {name : String} {json : Json} {members : List (String × Json)}
    (h : ∀ f : Field, name ∉ f.names) : Restated ((name, json) :: members) members
  | symm {members members' : List (String × Json)} (h : Restated members members') :
    Restated members' members
  | trans {members members' members'' : List (String × Json)} (h : Restated members members')
    (h' : Restated members' members'') : Restated members members''

theorem Field.not_mem_names {f f' : Field} (hne : f ≠ f') : ∀ name ∈ f.names, name ∉ f'.names := by
  cases f <;> cases f' <;> first | exact absurd rfl hne | decide

theorem Restated.perm_valuesIn {members members' : List (String × Json)}
    (h : Restated members members') (f : Field) :
    (f.valuesIn members).Perm (f.valuesIn members') := by
  induction h with
  | reordered h => exact (h.filter _).map _
  | @renamed g name name' json members h h' =>
    rw [Field.valuesIn, Field.valuesIn]
    by_cases hfield : g = f
    · subst hfield
      rw [Json.valuesOf_cons_of_mem h, Json.valuesOf_cons_of_mem h']
    · -- names of one field are no names of another
      rw [Json.valuesOf_cons_of_not_mem (Field.not_mem_names hfield name h),
        Json.valuesOf_cons_of_not_mem (Field.not_mem_names hfield name' h')]
  | unknown h =>
    rw [Field.valuesIn, Field.valuesIn, Json.valuesOf_cons_of_not_mem (h f)]
  | symm _ ih => exact ih.symm
  | trans _ _ ih ih' => exact ih.trans ih'

theorem Field.Tells.of_perm {f : Field} {given given' : List Json} {r : Request}
    (h : f.Tells given r) (hperm : given.Perm given') : f.Tells given' r := by
  cases h with
  | nothing h =>
    rw [hperm.symm.eq_nil]
    exact .nothing h
  | value h =>
    rw [hperm.symm.eq_singleton]
    exact .value h

/-! ### Requests from texts -/

section Texts

open Json (SpelledText)
open Shaped (parse)

/-- From an object a request is read by the names of its fields, from an array by their positions,
and from no other value.  Of what is given for a field nothing is overwritten, and where no request
is read the document is refused as one that cannot be read. -/
theorem read_by_name_or_position :
    (∀ (members : List (String × Json)) (text : String), SpelledText (.object members) text →
      ((∃ r : Request, parse text = .ok r) ↔ ∀ f : Field,
        (f.valuesIn members).length ≤ 1 ∧ ∀ json ∈ f.valuesIn members, f.HasType json) ∧
      (∀ r : Request, parse text = .ok r ↔ ∀ f : Field, f.Tells (f.valuesIn members) r) ∧
      ∀ (members' : List (String × Json)) (text' : String), SpelledText (.object members') text' →
        Restated members members' → ∀ r : Request, parse text = .ok r ↔ parse text' = .ok r) ∧
    (∀ (items : List Json) (text : String), SpelledText (.array items) text →
      ((∃ r : Request, parse text = .ok r) ↔ items.length ≤ 8 ∧
        ∀ (f : Field) (json : Json), items[f.position]? = some json → f.HasType json) ∧
      ∀ r : Request, parse text = .ok r ↔
        items.length ≤ 8 ∧ ∀ f : Field, f.Tells items[f.position]?.toList r) ∧
    (∀ (json : Json) (text : String), SpelledText json text → (∀ members, json ≠ .object members) →
      (∀ items, json ≠ .array items) → ∀ r : Request, parse text ≠ .ok r) ∧
    ∀ text : String, (∀ r : Request, parse text = .ok r → Document.parse text = r.build) ∧
      ((∀ r : Request, parse text ≠ .ok r) → ∃ e,
        (parse text : Except Json.Error Request) = .error e ∧
        Document.parse text = .error (.unreadable (Document.readingReason text e))) := by
  have object {members : List (String × Json)} {text : String}
      (h : SpelledText (.object members) text) (r : Request) :
      parse text = .ok r ↔ ∀ f : Field, f.Tells (f.valuesIn members) r :=
    (Shaped.parse_eq_ok h r).trans ofJson_object
  have array {items : List Json} {text : String} (h : SpelledText (.array items) text)
      (r : Request) : parse text = .ok r ↔
        items.length ≤ 8 ∧ ∀ f : Field, f.Tells items[f.position]?.toList r :=
    (Shaped.parse_eq_ok h r).trans ofJson_array
  refine ⟨fun members text h => ⟨?_, object h, ?_⟩, fun items text h => ⟨?_, array h⟩, ?_, ?_⟩
  · rw [exists_congr (object h)]
    exact exists_told_iff
  · intro members' text' h' hsame r
    rw [object h, object h']
    exact ⟨fun htells f => (htells f).of_perm (hsame.perm_valuesIn f),
      fun htells f => (htells f).of_perm (hsame.perm_valuesIn f).symm⟩
  · rw [exists_congr (array h), exists_and_left, exists_told_iff]
    refine and_congr_right fun _ => forall_congr' fun f => ?_
    cases items[f.position]? <;> simp
  · intro json text h hobject harray r hparse
    exact ofJson_other hobject harray r ((Shaped.parse_eq_ok h r).1 hparse)
  · intro text
    rw [Document.parse]
    cases hparse : (parse text : Except Json.Error Request) with
    | ok r =>
      refine ⟨fun r' hr' => ?_, fun hnone => absurd rfl (hnone r)⟩
      cases hr'
      rfl
    | error e =>
      refine ⟨fun r' hr' => ?_, fun _ => ⟨e, rfl, rfl⟩⟩
      cases hr'

/-- Second names, another order and an unknown member; an array without its last fields; and two
names of one field. -/
theorem read_by_name_or_position_of_two_fields :
    parse (Json.object [("groupName", .string "g"), ("note", .null), ("id", .string "d")]).compact =
      .ok (named "d" "g") ∧
    parse (Json.array [.string "d", .string "g"]).compact = .ok (named "d" "g") ∧
    ∀ r : Request,
      parse (Json.object [("id", .string "d"), ("deploymentId", .string "d")]).compact ≠ .ok r := by
  obtain ⟨object, array, -⟩ := read_by_name_or_position
  have members {members : List (String × Json)} (h : ∀ m ∈ members, m.2.Whole) :
      SpelledText (.object members) (Json.object members).compact :=
    Json.spelledText_compact (by rw [Json.Whole]; exact Json.wholeMembers_iff.2 h)
  have items {items : List Json} (h : ∀ item ∈ items, item.Whole) :
      SpelledText (.array items) (Json.array items).compact :=
    Json.spelledText_compact (by rw [Json.Whole]; exact Json.wholeItems_iff.2 h)
  refine ⟨?_, ?_, fun r hr => ?_⟩
  · refine ((object _ _ (members (by simp [Json.Whole]))).2.1 _).2 fun f => ?_
    cases f with
    | id | target => exact .value rfl
    | _ => exact .nothing rfl
  · refine ((array _ _ (items (by simp [Json.Whole]))).2 _).2 ⟨by decide, fun f => ?_⟩
    cases f with
    | id | target => exact .value rfl
    | _ => exact .nothing rfl
  · have htwice := (object _ _ (members (by simp [Json.Whole]))).1.1 ⟨r, hr⟩ .id
    exact absurd htwice.1 (by decide)

end Texts

end Request

end Rollout
