import Rollout.Proofs.Json.Skipping
import Rollout.Proofs.Shape.Passing
import Rollout.Shape.Tree

/-!
# Readers of spelled values

Each reader of a kind of value delivers, for every spelling of any JSON value, what the function on
JSON values for that kind makes of the value; so it fails for a value of another kind.  The readers
of containers take what their readers of parts do as a hypothesis.
-/

namespace Rollout

open Json (Agrees AtColon Blank Cursor Delivers EndsValue Outcome Spelled SpelledItems
  SpelledMembers SpelledString ok_bind)
open Text (Symbol)

variable {json : Json} {text space : List Char} {tail : List Symbol} {c : Cursor}

/-! ### The start of a value -/

theorem atValue_cons {x : Char} {rest : List Symbol} (hspace : Blank space)
    (hx : Cursor.isSpace (some x) = false) (hc : c.rest = space.map some ++ some x :: rest) :
    atValue c = .ok c.skipSpace ∧ c.skipSpace.rest = some x :: rest := by
  have hskip := Json.skipSpace_cons hspace hx hc
  refine ⟨?_, hskip⟩
  unfold atValue
  dsimp only
  rw [hskip]
  rfl

/-- At the start of a value its first character is next. -/
theorem atValue_spelled (h : Spelled json text) (hspace : Blank space)
    (hc : c.rest = space.map some ++ (text.map some ++ tail)) :
    ∃ x, json.Opens x ∧ atValue c = .ok c.skipSpace ∧ c.skipSpace.nextChar? = some x ∧
      c.skipSpace.rest = text.map some ++ tail := by
  obtain ⟨x, more, rfl, hx⟩ := Json.head_of_spelled h
  obtain ⟨hat, hskip⟩ := atValue_cons hspace (Json.solid_of_opens hx).1 hc
  exact ⟨x, hx, hat, Json.nextChar?_of_rest hskip, hskip⟩

theorem delivers_unexpected {ε α : Type} (expected : String) (c : Cursor) (e : ε) :
    Delivers (unexpected expected c) (.error e : Except ε α) tail :=
  fun _ => unexpected_ne_ok

/-! ### Texts -/

/-- A text is read wherever it stands, whatever follows it. -/
theorem readText_spelled {s : String} (h : SpelledString s text) (hspace : Blank space)
    (expected : String) (hc : c.rest = space.map some ++ (text.map some ++ tail)) :
    ∃ c', readText expected c = .ok (s, c') ∧ c'.rest = tail := by
  have htext : Spelled (.string s) text := by rwa [Spelled]
  obtain ⟨x, hx, hat, hnext, hrest⟩ := atValue_spelled htext hspace hc
  obtain ⟨-, c', hread, hc'⟩ := Json.readString_spelled h hrest
  refine ⟨c', ?_, hc'⟩
  cases (show x = '"' from hx)
  unfold readText
  rw [hat, ok_bind, if_pos hnext, hread]

theorem readText_agrees (expected : String) :
    Agrees (readText expected) (Json.asText expected) := by
  intro json text htext space hspace tail htail c hc
  obtain ⟨x, hx, hat, hnext, hrest⟩ := atValue_spelled htext hspace hc
  by_cases hquote : x = '"'
  · subst hquote
    obtain ⟨s, rfl⟩ := Json.opens_quote.1 hx
    rw [Spelled] at htext
    exact readText_spelled htext hspace expected hc
  · have hother : ∃ m, json.asText expected = .error m := by
      cases json with
      | string s => exact absurd hx hquote
      | _ => exact ⟨_, rfl⟩
    obtain ⟨m, hm⟩ := hother
    rw [hm]
    unfold readText
    rw [hat, ok_bind, hnext, if_neg (fun heq => hquote (Option.some.inj heq))]
    exact delivers_unexpected expected _ m

theorem readTextAs_agrees {α : Type} (convert : String → Except Mismatch α) (expected : String) :
    Agrees (readTextAs convert expected) fun json => json.asText expected >>= convert := by
  intro json text htext space hspace tail htail c hc
  unfold readTextAs
  refine (readText_agrees expected htext hspace htail hc).bind fun s c' hc' => ?_
  dsimp only
  cases convert s with
  | ok x => exact .of_ok rfl hc'
  | error m => exact fun r => mismatch_ne_ok

/-! ### Words -/

theorem ofJson_flag_of_ne (h : ∀ b, json ≠ .bool b) : ∃ m, Shape.flag.ofJson json = .error m :=
  ⟨_, by rw [Shape.ofJson]; exact h⟩

theorem readFlag_agrees : Agrees readFlag Shape.flag.ofJson := by
  intro json text htext space hspace tail _ c hc
  obtain ⟨x, hx, hat, hnext, hrest⟩ := atValue_spelled htext hspace hc
  unfold readFlag
  rw [hat, ok_bind, hnext]
  by_cases ht : x = 't'
  · subst ht
    obtain rfl := Json.opens_t.1 hx
    rw [Spelled] at htext
    subst htext
    obtain ⟨c', hword, hc'⟩ := Json.readWord_spelled "rue".toList (Json.advance_rest hrest)
    rw [if_pos rfl, hword, Shape.ofJson]
    exact .of_ok rfl hc'
  · rw [if_neg (fun heq => ht (Option.some.inj heq))]
    by_cases hf : x = 'f'
    · subst hf
      obtain rfl := Json.opens_f.1 hx
      rw [Spelled] at htext
      subst htext
      obtain ⟨c', hword, hc'⟩ := Json.readWord_spelled "alse".toList (Json.advance_rest hrest)
      rw [if_pos rfl, hword, Shape.ofJson]
      exact .of_ok rfl hc'
    · obtain ⟨m, hm⟩ : ∃ m, Shape.flag.ofJson json = .error m := by
        refine ofJson_flag_of_ne fun b hb => ?_
        subst hb
        cases b with
        | true => exact ht hx
        | false => exact hf hx
      rw [if_neg (fun heq => hf (Option.some.inj heq)), hm]
      exact delivers_unexpected _ _ m

def Json.asNull : Json → Except Mismatch Unit
  | .null => .ok ()
  | other => .error (.wrongType other.found "unit")

theorem readNull_agrees :
    Agrees (fun c => (readNull c).map fun c' => ((), c')) Json.asNull := by
  intro json text htext space hspace tail _ c hc
  obtain ⟨x, hx, hat, hnext, hrest⟩ := atValue_spelled htext hspace hc
  dsimp only
  unfold readNull
  rw [hat, ok_bind, hnext]
  by_cases hn : x = 'n'
  · subst hn
    obtain rfl := Json.opens_n.1 hx
    rw [Spelled] at htext
    subst htext
    obtain ⟨c', hword, hc'⟩ := Json.readWord_spelled "ull".toList (Json.advance_rest hrest)
    rw [if_pos rfl, hword]
    exact .of_ok rfl hc'
  · obtain ⟨m, hm⟩ : ∃ m, json.asNull = .error m := by
      cases json with
      | null => exact absurd hx hn
      | _ => exact ⟨_, rfl⟩
    rw [if_neg (fun heq => hn (Option.some.inj heq)), hm]
    intro r hr
    obtain ⟨c', hc', -⟩ := Json.map_eq_ok.1 hr
    exact unexpected_ne_ok hc'

/-! ### Integers -/

theorem digit?_head {x : Char} (hx : x.isDigit = true) (rest : List Symbol) :
    ((some x :: rest).head?.bind Json.digit?).isSome = true := by
  simp only [List.head?_cons, Option.bind_some, Json.digit?, hx, if_true, Option.isSome_some]

/-- The digits of a spelled number are read, with or without a sign in front of them. -/
theorem readInteger_literal {α : Type} (convert : Json.Number → Except Mismatch α)
    (expected : String) (l : Json.Literal) (hspace : Blank space)
    (hc : c.rest = space.map some ++ (l.text.map some ++ tail)) :
    ∃ c₁ : Cursor, c₁.rest = (Nat.toDigits 10 l.whole).map some ++ (l.scale.map some ++ tail) ∧
      readInteger convert expected c = (do
        let (n, c) ← Json.readNumber l.negative c₁
        match convert n with
        | .ok x => .ok (x, c)
        | .error m => c.mismatch m) := by
  cases hnegative : l.negative with
  | true =>
    have hstart : c.rest = space.map some ++
        some '-' :: ((Nat.toDigits 10 l.whole).map some ++ (l.scale.map some ++ tail)) := by
      rw [hc, Json.Literal.text, hnegative]
      simp
    obtain ⟨hat, hskip⟩ := atValue_cons hspace rfl hstart
    refine ⟨c.skipSpace.advance, Json.advance_rest hskip, ?_⟩
    unfold readInteger
    rw [hat, ok_bind]
    exact if_pos (Json.nextChar?_of_rest hskip)
  | false =>
    obtain ⟨x, digits, hdigits, hx⟩ := Json.head_toDigits_solid l.whole
    have hopens : (Json.int 0).Opens x := .inr hx
    obtain ⟨hsolid, -⟩ := Json.solid_of_opens hopens
    have hstart : c.rest = space.map some ++
        some x :: (digits.map some ++ (l.scale.map some ++ tail)) := by
      rw [hc, Json.Literal.text, hnegative, hdigits]
      simp
    obtain ⟨hat, hskip⟩ := atValue_cons hspace hsolid hstart
    have hminus : ¬c.skipSpace.nextChar? = some '-' := by
      rw [Json.nextChar?_of_rest hskip]
      rintro heq
      cases heq
      exact absurd hx (by decide)
    refine ⟨c.skipSpace, ?_, ?_⟩
    · rw [hskip, hdigits]
      rfl
    · unfold readInteger
      rw [hat, ok_bind]
      exact (if_neg hminus).trans (if_pos (by rw [hskip]; exact digit?_head hx _))

theorem readInteger_agrees {α : Type} {convert : Json.Number → Except Mismatch α}
    (hfloat : ∀ x, ∃ m, convert (.float x) = .error m) (expected : String) :
    Agrees (readInteger convert expected) (Json.asInteger convert expected) := by
  intro json text htext space hspace tail htail c hc
  have hends := Json.endsNumber_of_endsValue htail
  by_cases hnumber : ∃ n, json = .number n
  · obtain ⟨n, rfl⟩ := hnumber
    rw [Spelled] at htext
    rw [Json.asInteger]
    cases n with
    | int i =>
      obtain ⟨l, hl, rfl⟩ := htext
      obtain ⟨c₁, hc₁, hread⟩ := readInteger_literal convert expected l hspace hc
      obtain ⟨c', hdigits, hc'⟩ := Json.readNumber_integer hl hends hc₁
      rw [hread, hdigits, ok_bind]
      dsimp only
      cases convert (.int i) with
      | ok x => exact .of_ok rfl hc'
      | error m => exact fun r => mismatch_ne_ok
    | float x =>
      obtain ⟨l, hl, rfl⟩ := htext
      obtain ⟨c₁, hc₁, hread⟩ := readInteger_literal convert expected l hspace hc
      obtain ⟨m, hm⟩ := hfloat x
      rw [hm]
      intro r hr
      rw [hread] at hr
      obtain ⟨⟨n, c'⟩, hdigits, hr⟩ := Json.bind_eq_ok.1 hr
      obtain ⟨y, rfl⟩ := Json.readNumber_decimal hl hends hc₁ hdigits
      obtain ⟨m', hm'⟩ := hfloat y
      dsimp only at hr
      rw [hm'] at hr
      exact mismatch_ne_ok hr
  · obtain ⟨m, hm⟩ : ∃ m, json.asInteger convert expected = .error m := by
      cases json with
      | number n => exact absurd ⟨n, rfl⟩ hnumber
      | _ => exact ⟨_, rfl⟩
    obtain ⟨x, hx, hat, hnext, hrest⟩ := atValue_spelled htext hspace hc
    obtain ⟨hminus, hdigit⟩ := Json.not_digit_of_opens hx fun n hn => hnumber ⟨n, hn⟩
    obtain ⟨y, more, rfl, -⟩ := Json.head_of_spelled htext
    cases hnext.symm.trans (Json.nextChar?_of_rest hrest)
    have hnone : ¬(c.skipSpace.rest.head?.bind Json.digit?).isSome = true := by
      rw [hrest]
      simp [Json.digit?, hdigit]
    rw [hm]
    unfold readInteger
    rw [hat, ok_bind]
    dsimp only
    rw [hnext, if_neg (fun heq => hminus (Option.some.inj heq)), if_neg hnone]
    exact delivers_unexpected expected _ m

/-! ### Choices -/

/-- Ends a choice that is written as an object, behind its member. -/
def endVariant {α : Type} (x : α) (c : Cursor) : Except Json.Error (α × Cursor) :=
  let c := c.skipSpace
  if c.rest.isEmpty then c.fail .endInObject
  else if c.nextChar? = some '\x7d' then return (x, c.advance)
  else c.fail .expectedValue

/-- Reads a choice that is written as an object, behind its brace. -/
def readVariant (names : List String) (c : Cursor) :
    Except Json.Error (Fin names.length × Cursor) := do
  let (i, c) ← readTextAs (chooseName names) "variant identifier" c
  let c ← Json.passColon c
  let c ← readNull c
  endVariant i c

def notAlone : Mismatch := .wrongValue .table "map with a single key"

/-- What is made of the first member of a choice that is written as an object. -/
def Json.variantOf (names : List String) (name : String) (value : Json)
    (rest : List (String × Json)) : Except Mismatch (Fin names.length) := do
  let i ← chooseName names name
  value.asNull
  if rest = [] then .ok i else .error notAlone

theorem endVariant_agrees {α : Type} (x : α) {members : List (String × Json)} {body : List Char}
    (h : SpelledMembers false members body) (hc : c.rest = body.map some ++ tail) :
    Delivers (endVariant x c) (if members = [] then .ok x else .error notAlone) tail := by
  unfold endVariant
  dsimp only
  cases members with
  | nil =>
    simp only [SpelledMembers] at h
    obtain ⟨space, hspace, rfl⟩ := h
    rw [List.map_append, List.append_assoc] at hc
    have hskip := Json.skipSpace_cons (x := '\x7d') hspace rfl hc
    refine .of_ok ?_ (Json.advance_rest hskip)
    rw [hskip, Json.nextChar?_of_rest hskip]
    rfl
  | cons m rest =>
    simp only [SpelledMembers] at h
    obtain ⟨comma, space, key, before, after, spelling, more, ⟨front, hfront, rfl⟩, -, -, -, -, -,
      -, rfl⟩ := h
    rw [List.map_append, List.map_append, List.append_assoc, List.append_assoc] at hc
    have hskip := Json.skipSpace_cons (x := ',') hfront rfl hc
    rw [hskip, Json.nextChar?_of_rest hskip]
    exact nofun

theorem toOption_variantOf (names : List String) (name : String) (value : Json)
    (rest : List (String × Json)) :
    (Json.asChoice names (.object ((name, value) :: rest))).toOption =
      (Json.variantOf names name value rest).toOption := by
  unfold Json.variantOf
  cases rest with
  | nil =>
    simp only [Json.asChoice]
    cases chooseName names name with
    | error m => rfl
    | ok i => cases value <;> rfl
  | cons m rest =>
    cases chooseName names name with
    | error m => rfl
    | ok i => cases value <;> rfl

theorem readVariant_agrees (names : List String) {members : List (String × Json)}
    {body : List Char} (h : SpelledMembers true members body)
    (hc : c.rest = body.map some ++ tail) :
    Delivers (readVariant names c) (Json.asChoice names (.object members)) tail := by
  cases members with
  | nil =>
    simp only [SpelledMembers] at h
    obtain ⟨space, hspace, rfl⟩ := h
    rw [List.map_append, List.append_assoc] at hc
    obtain ⟨hat, hskip⟩ := atValue_cons (x := '\x7d') hspace rfl hc
    intro r hr
    obtain ⟨⟨i, c₁⟩, hread, -⟩ := Json.bind_eq_ok.1 hr
    obtain ⟨⟨s, c₂⟩, htext, -⟩ := Json.bind_eq_ok.1 hread
    unfold readText at htext
    rw [hat, ok_bind, Json.nextChar?_of_rest hskip] at htext
    exact unexpected_ne_ok htext
  | cons m rest =>
    obtain ⟨name, value⟩ := m
    simp only [SpelledMembers] at h
    obtain ⟨comma, space, key, before, after, spelling, more, hcomma, hspace, hkey, hbefore, hafter,
      hvalue, hmore, rfl⟩ := h
    cases (show comma = [] from hcomma)
    have hstart : c.rest = space.map some ++ (key.map some ++ (before.map some ++
        some ':' :: (after.map some ++ (spelling.map some ++ (more.map some ++ tail))))) := by
      rw [hc]
      simp
    obtain ⟨c₁, hread, hc₁⟩ := readText_spelled hkey hspace "variant identifier" hstart
    have hname : Delivers (readTextAs (chooseName names) "variant identifier" c)
        (chooseName names name) c₁.rest := by
      unfold readTextAs
      rw [hread, ok_bind]
      dsimp only
      cases chooseName names name with
      | ok i => exact .of_ok rfl rfl
      | error m => exact fun r => mismatch_ne_ok
    have hall : Delivers (readVariant names c) (Json.variantOf names name value rest) tail := by
      refine hname.bind fun i c' hc' => ?_
      obtain ⟨c₂, hcolon, hc₂⟩ := Json.passColon_spelled hbefore (c := c') (hc'.trans hc₁)
      have hnull := readNull_agrees hvalue hafter (Json.endsValue_of_spelledMembers hmore tail) hc₂
      have hend := hnull.bind (f := fun r => endVariant i r.2) fun _ c₃ hc₃ =>
        endVariant_agrees i hmore hc₃
      dsimp only at hend ⊢
      rw [hcolon, ok_bind]
      cases hnext : readNull c₂ with
      | error e =>
        rw [hnext] at hend
        exact hend
      | ok c₃ =>
        rw [hnext] at hend
        exact hend
    exact hall.congr (toOption_variantOf names name value rest)

theorem readChoice_agrees (names : List String) :
    Agrees (readChoice names) (Json.asChoice names) := by
  intro json text htext space hspace tail htail c hc
  obtain ⟨x, hx, -, -, hrest⟩ := atValue_spelled htext hspace hc
  obtain ⟨y, more, rfl, hy⟩ := Json.head_of_spelled htext
  have hfront : c.skipSpace.rest = some y :: (more.map some ++ tail) := hrest
  unfold readChoice
  dsimp only
  rw [hfront]
  dsimp only
  by_cases hbrace : y = '\x7b'
  · subst hbrace
    obtain ⟨members, rfl⟩ := Json.opens_brace.1 hy
    rw [Spelled] at htext
    obtain ⟨body, hbody, hmembers⟩ := htext
    cases hbody
    rw [if_pos rfl]
    exact readVariant_agrees names hmembers (Json.advance_rest hrest)
  · rw [if_neg (fun heq => hbrace (Option.some.inj heq))]
    by_cases hquote : y = '"'
    · subst hquote
      obtain ⟨s, rfl⟩ := Json.opens_quote.1 hy
      rw [if_pos rfl]
      exact readTextAs_agrees (chooseName names) "variant identifier" htext Json.blank_nil htail
        (c := c.skipSpace) hrest
    · obtain ⟨m, hm⟩ : ∃ m, json.asChoice names = .error m := by
        cases json with
        | object members => exact absurd hy hbrace
        | string s => exact absurd hy hquote
        | _ => exact ⟨_, rfl⟩
      rw [if_neg (fun heq => hquote (Option.some.inj heq)), hm]
      exact fun r => failNext_ne_ok

/-! ### Sequences -/

theorem readSequence_agrees {α : Type} {item : Cursor → Outcome α}
    {of : Json → Except Mismatch α} (h : Agrees item of) :
    Agrees (readSequence item) fun json => json.asItems "a sequence" >>= List.mapM of := by
  intro json text htext space hspace tail htail c hc
  obtain ⟨x, hx, hat, hnext, hrest⟩ := atValue_spelled htext hspace hc
  unfold readSequence
  rw [hat, ok_bind, hnext]
  by_cases hbracket : x = '['
  · subst hbracket
    obtain ⟨items, rfl⟩ := Json.opens_bracket.1 hx
    rw [Spelled] at htext
    obtain ⟨body, rfl, hbody⟩ := htext
    have hlength := Json.length_lt_of_spelledItems hbody
    rw [if_pos rfl]
    refine Json.readItems_agrees h hbody ?_ (Json.advance_rest hrest)
    rw [hrest, List.length_append, List.length_map, List.length_cons]
    omega
  · obtain ⟨m, hm⟩ : ∃ m, json.asItems "a sequence" = .error m := by
      cases json with
      | array items => exact absurd hx hbracket
      | _ => exact ⟨_, rfl⟩
    rw [if_neg (fun heq => hbracket (Option.some.inj heq))]
    dsimp only
    rw [hm]
    exact delivers_unexpected _ _ m

/-! ### Tables -/

/-- Entries can be put into a table one after another or, once all are read, together. -/
theorem foldlM_insert {α : Type} (of : Json → Except Mismatch α) (members : List (String × Json))
    (table : NameMap α) :
    members.foldlM (fun table m => (of m.2).map (table.insert m.1)) table =
      (members.mapM fun m => (of m.2).map (m.1, ·)) >>= fun entries =>
        .ok (table.insertAll entries) := by
  induction members generalizing table with
  | nil => rfl
  | cons m members ih =>
    rw [List.foldlM_cons, List.mapM_cons]
    cases hm : of m.2 with
    | error e => rfl
    | ok x =>
      show members.foldlM _ (table.insert m.1 x) = _
      rw [ih]
      generalize (members.mapM fun m => (of m.2).map (m.1, ·)) = all
      cases all with
      | error e => rfl
      | ok entries => rfl

theorem readEntry_agrees {α : Type} {value : Cursor → Outcome α} {of : Json → Except Mismatch α}
    (h : Agrees value of) {name : String} {table : NameMap α} (hcolon : AtColon json c tail)
    (htail : EndsValue tail) :
    Delivers (Json.readEntry value name table c) ((of json).map (table.insert name)) tail := by
  obtain ⟨c₁, hpass, hvalue⟩ := hcolon.delivers htail
  unfold Json.readEntry
  rw [hpass, ok_bind]
  exact (hvalue h).map (table.insert name)

/-- Reads a table from a JSON value, given the reader of its values. -/
def Json.asTable {α : Type} (of : Json → Except Mismatch α) : Json → Except Mismatch (NameMap α)
  | .object members => do
    let entries ← members.mapM fun m => (of m.2).map (m.1, ·)
    return NameMap.ofList entries
  | other => .error (.wrongType other.found "a map")

theorem readTable_agrees {α : Type} {value : Cursor → Outcome α} {of : Json → Except Mismatch α}
    (h : Agrees value of) : Agrees (readTable value) (Json.asTable of) := by
  intro json text htext space hspace tail htail c hc
  obtain ⟨x, hx, hat, hnext, hrest⟩ := atValue_spelled htext hspace hc
  unfold readTable
  rw [hat, ok_bind, hnext]
  by_cases hbrace : x = '\x7b'
  · subst hbrace
    obtain ⟨members, rfl⟩ := Json.opens_brace.1 hx
    rw [Spelled] at htext
    obtain ⟨body, rfl, hbody⟩ := htext
    have hlength := Json.length_lt_of_spelledMembers hbody
    have hbound : members.length < c.skipSpace.rest.length + 1 := by
      rw [hrest, List.length_append, List.length_map, List.length_cons]
      omega
    have hloop := Json.readMembers_agrees
      (fun table m => (of m.2).map (table.insert m.1))
      (fun hcolon htail => readEntry_agrees h hcolon htail) hbody hbound NameMap.empty
      (Json.advance_rest hrest)
    rw [foldlM_insert] at hloop
    rw [if_pos rfl]
    refine hloop.before fun table c₁ hc₁ => ?_
    obtain ⟨c', hend, hc'⟩ := Json.endObject_spelled Json.blank_nil (c := c₁) hc₁
    refine ⟨c', ?_, hc'⟩
    dsimp only
    rw [hend]
    rfl
  · obtain ⟨m, hm⟩ : ∃ m, Json.asTable of json = .error m := by
      cases json with
      | object members => exact absurd hx hbrace
      | _ => exact ⟨_, rfl⟩
    rw [if_neg (fun heq => hbrace (Option.some.inj heq)), hm]
    exact delivers_unexpected _ _ m

end Rollout
