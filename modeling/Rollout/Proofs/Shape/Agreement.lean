import Rollout.Proofs.Shape.Parts
import Rollout.Shape.Shaped

/-!
# Reading a text is reading the value that it spells

`Shape.read` reads a text in one pass, `Shape.ofJson` a JSON value that is already there.  For every
shape and every spelling of any value both come to the same: `Shape.read_agrees`.  So what is
accepted, and as what, is a matter of values, not of texts.
-/

namespace Rollout

open Json (Agrees AtColon Blank Cursor Delivers EndsValue Outcome Spelled SpelledItems
  SpelledMembers ok_bind)
open Text (Symbol)

variable {json : Json} {items : List Json} {first : Bool} {text space : List Char}
  {tail : List Symbol} {c : Cursor}

/-! ### Pairs and optional values -/

theorem Shape.optional_agrees {inner : Shape} (h : Agrees inner.read inner.ofJson) :
    Agrees (Shape.optional inner).read (Shape.optional inner).ofJson := by
  intro json text htext space hspace tail htail c hc
  obtain ⟨x, hx, -, hnext, hrest⟩ := atValue_spelled htext hspace hc
  rw [Shape.read]
  dsimp only
  rw [hnext]
  by_cases hn : x = 'n'
  · subst hn
    obtain rfl := Json.opens_n.1 hx
    rw [Spelled] at htext
    subst htext
    obtain ⟨c', hword, hc'⟩ := Json.readWord_spelled "ull".toList (Json.advance_rest hrest)
    rw [if_pos rfl, hword, Shape.ofJson]
    exact .of_ok rfl hc'
  · have hnull : json ≠ .null := by
      rintro rfl
      exact hn hx
    have hother : (Shape.optional inner).ofJson json = (inner.ofJson json).map some := by
      rw [Shape.ofJson]
      exact hnull
    have hinner := h htext Json.blank_nil htail (c := c.skipSpace) hrest
    rw [if_neg (fun heq => hn (Option.some.inj heq)), hother]
    exact hinner.map some

/-- An array can be ended where all items are used. -/
theorem endArray_noneLeft {α : Type} (a : α) (length : Nat) (h : SpelledItems first items text)
    (hc : c.rest = text.map some ++ tail) :
    Delivers (do return (a, ← Json.endArray c)) (do noneLeft length items; return a) tail := by
  have hend := Json.endArray_items h hc
  cases items with
  | nil =>
    obtain ⟨c', hend, hc'⟩ := hend
    rw [hend]
    exact .of_ok rfl hc'
  | cons item items =>
    intro r hr
    obtain ⟨c', hc', -⟩ := Json.bind_eq_ok.1 hr
    exact hend c' hc'

theorem Shape.pair_agrees {firstShape secondShape : Shape}
    (hfirst : Agrees firstShape.read firstShape.ofJson)
    (hsecond : Agrees secondShape.read secondShape.ofJson) :
    Agrees (Shape.pair firstShape secondShape).read (Shape.pair firstShape secondShape).ofJson := by
  intro json text htext space hspace tail htail c hc
  obtain ⟨x, hx, hat, hnext, hrest⟩ := atValue_spelled htext hspace hc
  rw [Shape.read, Shape.ofJson, hat, ok_bind, hnext]
  by_cases hbracket : x = '['
  · subst hbracket
    obtain ⟨items, rfl⟩ := Json.opens_bracket.1 hx
    rw [Spelled] at htext
    obtain ⟨body, rfl, hbody⟩ := htext
    have hstart := Json.advance_rest hrest
    rw [if_pos rfl, Json.asItems, ok_bind]
    cases items with
    | nil =>
      obtain ⟨c₁, hnone, -⟩ := Json.nextItem_none hbody hstart
      rw [hnone, ok_bind]
      exact fun r => mismatch_ne_ok
    | cons a items =>
      obtain ⟨c₁, value, more, hmore, hvalue, hitems, hc₁⟩ := Json.nextItem_value hbody hstart
      have ha := hfirst hvalue Json.blank_nil (Json.endsValue_of_spelledItems hitems tail) hc₁
      rw [hmore, ok_bind]
      simp only [Bool.not_true, Bool.false_eq_true, if_false]
      cases items with
      | nil =>
        dsimp only
        refine ha.bind fun p c₂ hc₂ => ?_
        obtain ⟨c₃, hnone, -⟩ := Json.nextItem_none hitems hc₂
        dsimp only
        rw [hnone, ok_bind]
        exact fun r => mismatch_ne_ok
      | cons b items =>
        dsimp only
        refine ha.bind fun p c₂ hc₂ => ?_
        obtain ⟨c₃, value, more, hmore, hvalue, hitems, hc₃⟩ := Json.nextItem_value hitems hc₂
        have hb := hsecond hvalue Json.blank_nil (Json.endsValue_of_spelledItems hitems tail) hc₃
        dsimp only
        rw [hmore, ok_bind]
        simp only [Bool.not_true, Bool.false_eq_true, if_false]
        refine hb.bind fun q c₄ hc₄ => ?_
        exact endArray_noneLeft (p, q) _ hitems hc₄
  · obtain ⟨m, hm⟩ : ∃ m, json.asItems pairDescription = .error m := by
      cases json with
      | array items => exact absurd hx hbracket
      | _ => exact ⟨_, rfl⟩
    rw [if_neg (fun heq => hbracket (Option.some.inj heq)), hm]
    exact delivers_unexpected _ _ m

/-! ### Records written as arrays -/

/-- Whether reading comes to a result and leaves the items that the result leaves. -/
def DeliversItems {ε α : Type} (outcome : Except Json.Error (α × Cursor))
    (result : Except ε (α × List Json)) (tail : List Symbol) : Prop :=
  match result with
  | .ok (a, items) => ∃ c' first text, outcome = .ok (a, c') ∧ SpelledItems first items text ∧
    c'.rest = text.map some ++ tail
  | .error _ => ∀ r, outcome ≠ .ok r

theorem DeliversItems.map {ε α β : Type} {outcome : Except Json.Error (α × Cursor)}
    {result : Except ε (α × List Json)} (h : DeliversItems outcome result tail) (f : α → β) :
    DeliversItems (outcome >>= fun r => .ok (f r.1, r.2)) (result >>= fun r => .ok (f r.1, r.2))
      tail := by
  cases result with
  | error e =>
    intro r hr
    obtain ⟨r', hr', -⟩ := Json.bind_eq_ok.1 hr
    exact h r' hr'
  | ok r =>
    obtain ⟨c', first, text, rfl, hitems, hc'⟩ := h
    exact ⟨c', first, text, rfl, hitems, hc'⟩

namespace Layout

/-- Whether the fields are read from the items of an array as from the values of the items. -/
def AgreesInOrder (fields : Layout) : Prop :=
  ∀ {expected : String} {index : Nat} {items : List Json} {text : List Char},
    SpelledItems (index = 0) items text → ∀ {c : Cursor} {tail : List Symbol},
    c.rest = text.map some ++ tail →
    DeliversItems (fields.readItems expected index c) (fields.ofItems expected index items) tail

theorem agreesInOrder_nil : AgreesInOrder .nil := by
  intro expected index items text h c tail hc
  exact ⟨c, _, text, rfl, h, hc⟩

section Field

variable {name : String} {aliases : List String} {presence : Presence} {shape : Shape}
  {rest : Layout}

theorem AgreesInOrder.field (hshape : Agrees shape.read shape.ofJson) (hrest : rest.AgreesInOrder) :
    AgreesInOrder (.field name aliases presence shape rest) := by
  intro expected index items text h c tail hc
  rw [readItems]
  cases items with
  | nil =>
    obtain ⟨c₁, hnone, hc₁⟩ := Json.nextItem_none h hc
    rw [ofItems, hnone, ok_bind]
    simp only [Bool.false_eq_true, if_false]
    cases homitted : (omitted presence : Option (presence.Carrier shape.Carrier)) with
    | none => exact fun r => mismatch_ne_ok
    | some value =>
      have hothers : DeliversItems (rest.readItems expected (index + 1) c₁)
          (rest.ofItems expected (index + 1) []) tail := by
        have hclosing : SpelledItems (decide (index + 1 = 0)) [] [']'] := by
          simp only [SpelledItems]
          exact ⟨[], Json.blank_nil, rfl⟩
        exact hrest hclosing hc₁
      exact hothers.map fun others => (value, others)
  | cons json items =>
    obtain ⟨c₁, value, more, hmore, hvalue, hitems, hc₁⟩ := Json.nextItem_value h hc
    have hx := hshape hvalue Json.blank_nil (Json.endsValue_of_spelledItems hitems tail) hc₁
    rw [ofItems, hmore, ok_bind]
    simp only [if_true]
    cases hjson : shape.ofJson json with
    | error e =>
      rw [hjson] at hx
      intro r hr
      obtain ⟨r', hr', -⟩ := Json.bind_eq_ok.1 hr
      exact hx r' hr'
    | ok x =>
      rw [hjson] at hx
      obtain ⟨c₂, hread, hc₂⟩ := hx
      have hlater : SpelledItems (decide (index + 1 = 0)) items more := by
        rw [decide_eq_false (Nat.succ_ne_zero index)]
        exact hitems
      rw [hread, ok_bind, ok_bind]
      exact (hrest hlater hc₂).map fun others => (present x presence, others)

end Field

end Layout

/-! ### Records written as objects -/

namespace Layout

/-- Whether reading what follows a name comes to what is made of its value, or no field has it. -/
def DeliversField {α : Type} (outcome : Option (Outcome α)) (result : Option (Except Mismatch α))
    (tail : List Symbol) : Prop :=
  match outcome, result with
  | none, none => True
  | some outcome, some result => Delivers outcome result tail
  | _, _ => False

/-- Whether the fields are read from the members of an object as from the values of the members. -/
def AgreesNamed (fields : Layout) : Prop :=
  ∀ {key : String} {draft : fields.Draft} {json : Json} {c : Cursor} {tail : List Symbol},
    AtColon json c tail → EndsValue tail →
    DeliversField (fields.readMember key draft c) (fields.ofMember key json draft) tail

theorem agreesNamed_nil : AgreesNamed .nil := fun _ _ => trivial

theorem AgreesNamed.field {name : String} {aliases : List String} {presence : Presence}
    {shape : Shape} {rest : Layout} (hshape : Agrees shape.read shape.ofJson)
    (hrest : rest.AgreesNamed) : AgreesNamed (.field name aliases presence shape rest) := by
  intro key draft json c tail hcolon htail
  obtain ⟨value, others⟩ := draft
  rw [readMember, ofMember]
  by_cases hkey : (key = name || aliases.contains key) = true
  · rw [if_pos hkey, if_pos hkey]
    cases value with
    | some x => exact fun r => mismatch_ne_ok
    | none =>
      obtain ⟨c₁, hpass, hvalue⟩ := hcolon.delivers htail
      simp only [Option.isSome_none, Bool.false_eq_true, if_false, hpass, ok_bind]
      exact (hvalue hshape).map fun x => (some x, others)
  · rw [if_neg hkey, if_neg hkey]
    have hothers : DeliversField (rest.readMember key others c) (rest.ofMember key json others)
        tail := hrest hcolon htail
    cases hread : rest.readMember key others c with
    | none =>
      cases hof : rest.ofMember key json others with
      | none => trivial
      | some result =>
        rw [hread, hof] at hothers
        exact hothers
    | some outcome =>
      cases hof : rest.ofMember key json others with
      | none =>
        rw [hread, hof] at hothers
        exact hothers
      | some result =>
        rw [hread, hof] at hothers
        exact Delivers.map hothers fun r => (value, r)

/-- Takes up a member of an object into a draft, as far as it is known. -/
def take (fields : Layout) (closed : Bool) (draft : fields.Draft) (m : String × Json) :
    Except Mismatch fields.Draft :=
  match fields.ofMember m.1 m.2 draft with
  | some outcome => outcome
  | none => if closed then .error (.unknownField m.1 fields.allNames) else .ok draft

theorem readNamed_agrees {fields : Layout} (h : fields.AgreesNamed) (closed : Bool) {name : String}
    {draft : fields.Draft} (hcolon : AtColon json c tail) (htail : EndsValue tail) :
    Delivers (readNamed closed fields.allNames fields.readMember name draft c)
      (fields.take closed draft (name, json)) tail := by
  have hfield : DeliversField (fields.readMember name draft c) (fields.ofMember name json draft)
      tail := h hcolon htail
  unfold readNamed take
  cases hread : fields.readMember name draft c with
  | some outcome =>
    cases hof : fields.ofMember name json draft with
    | some result =>
      rw [hread, hof] at hfield
      exact hfield
    | none =>
      rw [hread, hof] at hfield
      exact hfield.elim
  | none =>
    cases hof : fields.ofMember name json draft with
    | some result =>
      rw [hread, hof] at hfield
      exact hfield.elim
    | none =>
      cases closed with
      | true => exact fun r => mismatch_ne_ok
      | false =>
        obtain ⟨c₁, c₂, hpass, hskip, hc₂⟩ := hcolon.skipped htail
        refine .of_ok ?_ hc₂
        simp only [Bool.false_eq_true, if_false, hpass, ok_bind, hskip]
        rfl

end Layout

section Record

variable (title : String) (closed : Bool) (fields : Layout)

theorem Shape.ofJson_object (members : List (String × Json)) :
    (Shape.record title closed fields).ofJson (.object members) = (do
      let draft ← members.foldlM (fields.take closed) fields.blank
      (fields.finish draft).mapError .missingField) := by
  rw [Shape.ofJson]
  rfl

theorem Shape.ofJson_array (items : List Json) :
    (Shape.record title closed fields).ofJson (.array items) = (do
      let (values, rest) ← fields.ofItems (recordItemsDescription title fields.size) 0 items
      noneLeft items.length rest
      return values) := by
  rw [Shape.ofJson]

theorem Shape.ofJson_record_other {json : Json} (harray : ∀ items, json ≠ .array items)
    (hobject : ∀ members, json ≠ .object members) :
    (Shape.record title closed fields).ofJson json =
      .error (.wrongType json.found (recordDescription title)) := by
  rw [Shape.ofJson]
  · exact harray
  · exact hobject

end Record

theorem Shape.record_agrees (title : String) (closed : Bool) {fields : Layout}
    (hnamed : fields.AgreesNamed) (horder : fields.AgreesInOrder) :
    Agrees (Shape.record title closed fields).read (Shape.record title closed fields).ofJson := by
  intro json text htext space hspace tail htail c hc
  obtain ⟨x, hx, hat, hnext, hrest⟩ := atValue_spelled htext hspace hc
  rw [Shape.read, hat, ok_bind, hnext]
  by_cases hbracket : x = '['
  · subst hbracket
    obtain ⟨items, rfl⟩ := Json.opens_bracket.1 hx
    rw [Spelled] at htext
    obtain ⟨body, rfl, hbody⟩ := htext
    rw [if_pos rfl, Shape.ofJson_array]
    have hfirst : SpelledItems (decide (0 = 0)) items body := hbody
    have hitems : DeliversItems
        (fields.readItems (recordItemsDescription title fields.size) 0 c.skipSpace.advance)
        (fields.ofItems (recordItemsDescription title fields.size) 0 items) tail :=
      horder hfirst (Json.advance_rest hrest)
    cases hof : fields.ofItems (recordItemsDescription title fields.size) 0 items with
    | error e =>
      rw [hof] at hitems
      intro r hr
      obtain ⟨r', hr', -⟩ := Json.bind_eq_ok.1 hr
      exact hitems r' hr'
    | ok result =>
      rw [hof] at hitems
      obtain ⟨c₁, first, text, hread, hleft, hc₁⟩ := hitems
      rw [hread, ok_bind]
      exact endArray_noneLeft result.1 items.length hleft hc₁
  · rw [if_neg (fun heq => hbracket (Option.some.inj heq))]
    by_cases hbrace : x = '\x7b'
    · subst hbrace
      obtain ⟨members, rfl⟩ := Json.opens_brace.1 hx
      rw [Spelled] at htext
      obtain ⟨body, rfl, hbody⟩ := htext
      have hlength := Json.length_lt_of_spelledMembers hbody
      have hbound : members.length < c.skipSpace.rest.length + 1 := by
        rw [hrest, List.length_append, List.length_map, List.length_cons]
        omega
      have hloop := Json.readMembers_agrees (fields.take closed)
        (fun hcolon htail => Layout.readNamed_agrees hnamed closed hcolon htail) hbody hbound
        fields.blank (Json.advance_rest hrest)
      rw [if_pos rfl, Shape.ofJson_object]
      refine hloop.bind fun draft c₁ hc₁ => ?_
      dsimp only
      cases fields.finish draft with
      | error name => exact fun r => mismatch_ne_ok
      | ok values =>
        obtain ⟨c', hend, hc'⟩ := Json.endObject_spelled Json.blank_nil (c := c₁) hc₁
        dsimp only
        rw [hend]
        exact .of_ok rfl hc'
    · have harray : ∀ items, json ≠ .array items := by
        rintro items rfl
        exact hbracket hx
      have hobject : ∀ members, json ≠ .object members := by
        rintro members rfl
        exact hbrace hx
      rw [if_neg (fun heq => hbrace (Option.some.inj heq)),
        Shape.ofJson_record_other title closed fields harray hobject]
      exact delivers_unexpected _ _ _

/-! ### All shapes -/

theorem Shape.nameSet_agrees : Agrees Shape.nameSet.read Shape.nameSet.ofJson := by
  intro json text htext space hspace tail htail c hc
  have hnames := readSequence_agrees (readText_agrees "a string") htext hspace htail hc
  rw [Shape.read, Shape.ofJson]
  refine (hnames.bind (g := fun names => .ok (NameSet.ofList names)) fun names c' hc' =>
    .of_ok rfl hc').congr ?_
  dsimp only
  cases json.asItems "a sequence" with
  | error m => rfl
  | ok items => rfl

mutual

/-- Reading a spelling of a value is reading the value. -/
theorem Shape.read_agrees : (shape : Shape) → Agrees shape.read shape.ofJson
  | .text => readText_agrees "a string"
  | .path => readText_agrees "path string"
  | .int64 => readInteger_agrees (fun _ => ⟨_, rfl⟩) "i64"
  | .uint64 => readInteger_agrees (fun _ => ⟨_, rfl⟩) "u64"
  | .uint32 => readInteger_agrees (fun _ => ⟨_, rfl⟩) "u32"
  | .flag => readFlag_agrees
  | .time => readTextAs_agrees readTime timeDescription
  | .choice names => readChoice_agrees names
  | .optional inner => Shape.optional_agrees inner.read_agrees
  | .sequence item => readSequence_agrees item.read_agrees
  | .nameSet => Shape.nameSet_agrees
  | .table value => readTable_agrees value.read_agrees
  | .pair first second => Shape.pair_agrees first.read_agrees second.read_agrees
  | .record title closed fields =>
    Shape.record_agrees title closed fields.agreesNamed fields.agreesInOrder

theorem Layout.agreesNamed : (fields : Layout) → fields.AgreesNamed
  | .nil => Layout.agreesNamed_nil
  | .field _ _ _ shape rest => Layout.AgreesNamed.field shape.read_agrees rest.agreesNamed

theorem Layout.agreesInOrder : (fields : Layout) → fields.AgreesInOrder
  | .nil => Layout.agreesInOrder_nil
  | .field _ _ _ shape rest => Layout.AgreesInOrder.field shape.read_agrees rest.agreesInOrder

end

/-! ### Whole texts -/

theorem Json.endsValue_of_blank {space : List Char} (h : Blank space) :
    EndsValue (space.map some) := by
  intro s hs
  cases space with
  | nil => cases hs
  | cons x space =>
    cases hs
    exact .inl (h x List.mem_cons_self)

theorem Json.endText_blank {α : Type} (a : α) (h : Blank space) (hc : c.rest = space.map some) :
    Json.endText a c = .ok a := by
  have hskip : c.skipSpace.rest = [] := by
    have hstart : c.rest = space.map some ++ [] := by rw [hc, List.append_nil]
    exact Json.skipSpace_rest h nofun hstart
  unfold Json.endText
  dsimp only
  rw [hskip]
  rfl

namespace Shaped

variable {α : Type} [Shaped α]

/-- A text is read as a value exactly if the JSON value that it spells is. -/
theorem parse_eq_ok {text : String} (h : Json.SpelledText json text) (a : α) :
    parse text = .ok a ↔ ofJson json = .ok a := by
  obtain ⟨before, value, after, hbefore, hvalue, hafter, htext⟩ := h
  have hstart : (Cursor.start (Text.symbols text)).rest =
      before.map some ++ (value.map some ++ after.map some) := by
    rw [Cursor.start, Text.symbols, htext, List.map_append, List.map_append]
  have hread := (shape α).read_agrees hvalue hbefore (Json.endsValue_of_blank hafter) hstart
  rw [parse, parseSymbols, ofJson]
  cases hof : (shape α).ofJson json with
  | error m =>
    rw [hof] at hread
    refine iff_of_false (fun hparse => ?_) nofun
    obtain ⟨r, hr, -⟩ := Json.bind_eq_ok.1 hparse
    exact hread r hr
  | ok x =>
    rw [hof] at hread
    obtain ⟨c', hread, hc'⟩ := hread
    rw [hread, ok_bind]
    dsimp only
    rw [Json.endText_blank (ofCarrier x) hafter hc']
    simp [Except.map]

end Shaped

end Rollout
