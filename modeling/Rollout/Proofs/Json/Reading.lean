import Rollout.Json.Group
import Rollout.Proofs.Json.Spelling

/-!
# Reading what was spelled

The readers of tokens deliver what a spelled token stands for and stop right behind it.  Only what
is left to read matters for that; lines and columns do not.
-/

namespace Rollout.Json

open Text (Symbol)

theorem ok_bind {ε α β : Type} (a : α) (f : α → Except ε β) : (Except.ok a >>= f) = f a := rfl

theorem bind_eq_ok {ε α β : Type} {x : Except ε α} {f : α → Except ε β} {b : β} :
    (x >>= f) = .ok b ↔ ∃ a, x = .ok a ∧ f a = .ok b := by
  cases x with
  | ok a =>
    rw [ok_bind]
    exact ⟨fun h => ⟨a, rfl, h⟩, fun ⟨_, ha, h⟩ => by cases ha; exact h⟩
  | error e =>
    constructor
    · intro h
      cases h
    · rintro ⟨_, ha, -⟩
      cases ha

theorem map_eq_ok {ε α β : Type} {x : Except ε α} {f : α → β} {b : β} :
    x.map f = .ok b ↔ ∃ a, x = .ok a ∧ f a = b := by
  cases x with
  | ok a =>
    constructor
    · intro h
      exact ⟨a, rfl, Except.ok.inj h⟩
    · rintro ⟨_, ha, rfl⟩
      cases ha
      rfl
  | error e =>
    constructor
    · intro h
      cases h
    · rintro ⟨_, ha, -⟩
      cases ha

/-! ### Cursors -/

theorem advance_rest {c : Cursor} {s : Symbol} {rest : List Symbol} (h : c.rest = s :: rest) :
    c.advance.rest = rest := by
  unfold Cursor.advance
  rw [h]
  dsimp only [Cursor.after]
  split <;> rfl

theorem skipFrom_rest {space : List Char} (hspace : Blank space) {tail : List Symbol}
    (htail : ∀ s, tail.head? = some s → Cursor.isSpace s = false) (line column : Nat) :
    (Cursor.skipFrom line column (space.map some ++ tail)).rest = tail := by
  induction space generalizing line column with
  | nil =>
    cases tail with
    | nil => rfl
    | cons s rest =>
      have hsolid := htail s rfl
      have hline : s ≠ some '\n' := by
        rintro rfl
        cases hsolid
      simp only [List.map_nil, List.nil_append, Cursor.skipFrom, hline, if_false, hsolid,
        Bool.false_eq_true]
  | cons x space ih =>
    have hrest : Blank space := fun y hy => hspace y (List.mem_cons_of_mem _ hy)
    have hx := hspace x List.mem_cons_self
    simp only [List.map_cons, List.cons_append, Cursor.skipFrom, hx, if_true]
    split
    · exact ih hrest _ _
    · exact ih hrest _ _

theorem skipSpace_rest {c : Cursor} {space : List Char} (hspace : Blank space)
    {tail : List Symbol} (htail : ∀ s, tail.head? = some s → Cursor.isSpace s = false)
    (hc : c.rest = space.map some ++ tail) : c.skipSpace.rest = tail := by
  unfold Cursor.skipSpace
  rw [hc]
  exact skipFrom_rest hspace htail _ _

theorem skipSpace_cons {c : Cursor} {space : List Char} (hspace : Blank space) {x : Char}
    (hx : Cursor.isSpace (some x) = false) {rest : List Symbol}
    (hc : c.rest = space.map some ++ some x :: rest) : c.skipSpace.rest = some x :: rest := by
  refine skipSpace_rest hspace ?_ hc
  rintro s hs
  cases hs
  exact hx

theorem readWord_spelled (word : List Char) {c : Cursor} {tail : List Symbol}
    (hc : c.rest = word.map some ++ tail) :
    ∃ c', readWord word c = .ok c' ∧ c'.rest = tail := by
  induction word generalizing c with
  | nil => exact ⟨c, rfl, hc⟩
  | cons letter word ih =>
    obtain ⟨c', hread, hrest⟩ := ih (advance_rest hc)
    refine ⟨c', ?_, hrest⟩
    simp only [readWord]
    rw [hc]
    simp only [List.map_cons, List.cons_append, if_true]
    exact hread

/-! ### Strings -/

section Escapes

variable {c : Cursor} {tail : List Symbol}

theorem readHex_spelled {unit : Nat} {digits : List Char} (h : SpelledUnit unit digits)
    (hc : c.rest = digits.map some ++ tail) :
    ∃ c', readHex c = .ok (unit, c') ∧ c'.rest = tail := by
  obtain ⟨x₁, x₂, x₃, x₄, n₁, n₂, n₃, n₄, h₁, h₂, h₃, h₄, rfl, rfl⟩ := h
  refine ⟨⟨tail, c.line, c.column + 4⟩, ?_, rfl⟩
  unfold readHex
  rw [hc]
  simp only [List.map_cons, List.map_nil, List.cons_append, List.nil_append, h₁, h₂, h₃, h₄]

theorem readEscape_letter {e x : Char} (he : simpleEscape e = some x)
    (hc : c.rest = some e :: tail) : ∃ c', readEscape c = .ok (x, c') ∧ c'.rest = tail := by
  have hu : e ≠ 'u' := by
    rintro rfl
    cases he
  have hsome : some e ≠ some 'u' := fun h => hu (Option.some.inj h)
  refine ⟨c.advance, ?_, advance_rest hc⟩
  unfold readEscape
  rw [hc]
  simp only [hsome, if_false, Option.bind_some, he]

theorem readEscape_u {rest : List Symbol} (hc : c.rest = some 'u' :: rest) :
    readEscape c = readCodeEscape c.advance := by
  unfold readEscape
  rw [hc]
  rfl

theorem readCodeEscape_code {x : Char} {digits : List Char} (h : SpelledUnit x.toNat digits)
    (hc : c.rest = digits.map some ++ tail) :
    ∃ c', readCodeEscape c = .ok (x, c') ∧ c'.rest = tail := by
  obtain ⟨c', hread, hrest⟩ := readHex_spelled h hc
  have hvalid : x.toNat < 0xd800 ∨ 0xdfff < x.toNat := by
    have hx : x.toNat.isValidChar := x.valid
    rcases hx with h | h
    · exact .inl h
    · exact .inr h.1
  have hlow : (decide (0xdc00 ≤ x.toNat) && decide (x.toNat ≤ 0xdfff)) = false := by
    rw [Bool.and_eq_false_iff, decide_eq_false_iff_not, decide_eq_false_iff_not]
    omega
  have hhigh : (decide (x.toNat < 0xd800) || decide (0xdbff < x.toNat)) = true := by
    rw [Bool.or_eq_true, decide_eq_true_eq, decide_eq_true_eq]
    omega
  refine ⟨c', ?_, hrest⟩
  unfold readCodeEscape
  rw [hread, ok_bind]
  simp only [hlow, hhigh, Bool.false_eq_true, if_false, if_true, Char.ofNat_toNat]
  rfl

theorem expectInPair_cons {x : Char} (hc : c.rest = some x :: tail) :
    expectInPair x c = .ok c.advance := by
  unfold expectInPair
  rw [hc]
  simp only [if_true]

theorem readCodeEscape_pair {x : Char} {high low : Nat} {first second : List Char}
    (hfirst : SpelledUnit high first) (hsecond : SpelledUnit low second)
    (hhigh : 0xd800 ≤ high ∧ high ≤ 0xdbff) (hlow : 0xdc00 ≤ low ∧ low ≤ 0xdfff)
    (hchar : 0x10000 + (high - 0xd800) * 0x400 + (low - 0xdc00) = x.toNat)
    (hc : c.rest = first.map some ++ some '\\' :: some 'u' :: (second.map some ++ tail)) :
    ∃ c', readCodeEscape c = .ok (x, c') ∧ c'.rest = tail := by
  obtain ⟨c₁, hread₁, hc₁⟩ := readHex_spelled hfirst hc
  have hc₂ := advance_rest hc₁
  have hc₃ := advance_rest hc₂
  obtain ⟨c', hread₂, hrest⟩ := readHex_spelled hsecond hc₃
  have hnotLow : (decide (0xdc00 ≤ high) && decide (high ≤ 0xdfff)) = false := by
    rw [Bool.and_eq_false_iff, decide_eq_false_iff_not, decide_eq_false_iff_not]
    omega
  have hsurrogate : (decide (high < 0xd800) || decide (0xdbff < high)) = false := by
    rw [Bool.or_eq_false_iff, decide_eq_false_iff_not, decide_eq_false_iff_not]
    omega
  have hpaired : (decide (low < 0xdc00) || decide (0xdfff < low)) = false := by
    rw [Bool.or_eq_false_iff, decide_eq_false_iff_not, decide_eq_false_iff_not]
    omega
  refine ⟨c', ?_, hrest⟩
  unfold readCodeEscape
  rw [hread₁, ok_bind]
  simp only [hnotLow, hsurrogate, Bool.false_eq_true, if_false]
  rw [expectInPair_cons hc₁, ok_bind, expectInPair_cons hc₂, ok_bind, hread₂, ok_bind]
  simp only [hpaired, Bool.false_eq_true, if_false, hchar, Char.ofNat_toNat]
  rfl

end Escapes

/-- A character of a string stands for itself or is written as an escape that is read as it. -/
theorem plain_or_escape {x : Char} {text : List Char} (h : SpelledChar x text) :
    (text = [x] ∧ x ≠ '"' ∧ x ≠ '\\' ∧ 0x20 ≤ x.toNat) ∨
      ∃ escape, text = '\\' :: escape ∧ ∀ {c : Cursor} {tail : List Symbol},
        c.rest = escape.map some ++ tail → ∃ c', readEscape c = .ok (x, c') ∧ c'.rest = tail := by
  cases h with
  | plain hquote hslash hcontrol => exact .inl ⟨rfl, hquote, hslash, hcontrol⟩
  | letter he => exact .inr ⟨_, rfl, fun hc => readEscape_letter he hc⟩
  | code h =>
    refine .inr ⟨_, rfl, fun {c tail} hc => ?_⟩
    rw [readEscape_u hc]
    exact readCodeEscape_code h (advance_rest hc)
  | @pair high low first second hfirst hsecond hhigh hlow hchar =>
    refine .inr ⟨_, rfl, fun {c tail} hc => ?_⟩
    have hsplit : c.rest = some 'u' ::
        (first.map some ++ some '\\' :: some 'u' :: (second.map some ++ tail)) := by
      rw [hc]
      simp
    rw [readEscape_u hsplit]
    exact readCodeEscape_pair hfirst hsecond hhigh hlow hchar (advance_rest hsplit)

theorem length_le_of_spelledChars {chars body : List Char} (h : SpelledChars chars body) :
    chars.length ≤ body.length := by
  induction h with
  | nil => exact Nat.le_refl 0
  | cons hchar _ ih =>
    rw [List.length_cons, List.length_append]
    rcases plain_or_escape hchar with ⟨rfl, -⟩ | ⟨escape, rfl, -⟩
    · simp only [List.length_cons, List.length_nil]
      omega
    · simp only [List.length_cons]
      omega

theorem readStringFrom_spelled {chars body : List Char} (h : SpelledChars chars body) (n : Nat)
    (hn : chars.length < n) (done : List Char) {c : Cursor} {tail : List Symbol}
    (hc : c.rest = body.map some ++ some '"' :: tail) :
    ∃ c', readStringFrom n done false c = .ok (String.ofList (done.reverse ++ chars), c') ∧
      c'.rest = tail := by
  induction h generalizing n done c with
  | nil =>
    obtain ⟨n, rfl⟩ : ∃ m, n = m + 1 := ⟨n - 1, by omega⟩
    refine ⟨c.advance, ?_, advance_rest hc⟩
    simp only [readStringFrom]
    rw [hc]
    simp only [List.map_nil, List.nil_append, if_true, Bool.false_eq_true, if_false,
      List.append_nil]
  | @cons x chars text rest hchar _ ih =>
    rw [List.length_cons] at hn
    obtain ⟨n, rfl⟩ : ∃ m, n = m + 1 := ⟨n - 1, by omega⟩
    have hdone : (x :: done).reverse ++ chars = done.reverse ++ x :: chars := by simp
    rw [List.map_append, List.append_assoc] at hc
    rcases plain_or_escape hchar with ⟨rfl, hquote, hslash, hcontrol⟩ | ⟨escape, rfl, hescape⟩
    · obtain ⟨c', hread, hrest⟩ := ih n (by omega) (x :: done) (advance_rest hc)
      refine ⟨c', ?_, hrest⟩
      rw [readStringFrom, hc]
      simp only [List.map_cons, List.cons_append, hquote, hslash, if_false]
      rw [if_neg (Nat.not_lt.2 hcontrol), hread, hdone]
    · obtain ⟨c₁, hchar, hc₁⟩ := hescape (advance_rest hc)
      obtain ⟨c', hread, hrest⟩ := ih n (by omega) (x :: done) hc₁
      refine ⟨c', ?_, hrest⟩
      rw [readStringFrom, hc]
      simp only [List.map_cons, List.cons_append, if_true]
      rw [if_neg (by decide), hchar]
      dsimp only
      rw [hread, hdone]

theorem readString_spelled {s : String} {text : List Char} (h : SpelledString s text) {c : Cursor}
    {tail : List Symbol} (hc : c.rest = text.map some ++ tail) :
    c.rest.head? = some (some '"') ∧
      ∃ c', readString c.advance = .ok (s, c') ∧ c'.rest = tail := by
  obtain ⟨body, hbody, rfl⟩ := h
  have hquote : c.rest = some '"' :: (body.map some ++ some '"' :: tail) := by
    rw [hc]
    simp
  have hadvance := advance_rest hquote
  have hlength : s.toList.length < c.advance.rest.length + 1 := by
    have hle := length_le_of_spelledChars hbody
    rw [hadvance]
    simp only [List.length_append, List.length_map, List.length_cons]
    omega
  obtain ⟨c', hread, hrest⟩ := readStringFrom_spelled hbody _ hlength [] hadvance
  refine ⟨by rw [hquote]; rfl, c', ?_, hrest⟩
  unfold readString
  rw [hread]
  simp

/-! ### Items and members -/

section Steps

variable {c : Cursor} {first : Bool} {comma space : List Char} {tail : List Symbol}

theorem nextItem_more (hcomma : Separator first comma) (hspace : Blank space) {x : Char}
    (hx : Cursor.isSpace (some x) = false) (hclose : x ≠ ']')
    (hc : c.rest = comma.map some ++ (space.map some ++ some x :: tail)) :
    ∃ c', nextItem first c = .ok (true, c') ∧ c'.rest = some x :: tail := by
  have hother : some x ≠ some ']' := fun h => hclose (Option.some.inj h)
  unfold nextItem
  dsimp only
  cases first with
  | true =>
    cases (show comma = [] from hcomma)
    have hskip := skipSpace_cons hspace hx hc
    refine ⟨c.skipSpace, ?_, hskip⟩
    rw [hskip]
    simp only [hother, if_false, if_true]
  | false =>
    obtain ⟨before, hbefore, rfl⟩ := hcomma
    have hsplit : c.rest = before.map some ++ some ',' :: (space.map some ++ some x :: tail) := by
      rw [hc]
      simp
    have hskip := skipSpace_cons hbefore rfl hsplit
    have hskip' := skipSpace_cons hspace hx (advance_rest hskip)
    refine ⟨c.skipSpace.advance.skipSpace, ?_, hskip'⟩
    rw [hskip]
    dsimp only
    rw [hskip']
    simp only [hother, if_false, if_true, Bool.false_eq_true]
    rfl

theorem nextItem_end (hspace : Blank space)
    (hc : c.rest = space.map some ++ some ']' :: tail) :
    ∃ c', nextItem first c = .ok (false, c') ∧ c'.rest = some ']' :: tail := by
  have hskip := skipSpace_cons hspace rfl hc
  refine ⟨c.skipSpace, ?_, hskip⟩
  unfold nextItem
  dsimp only
  rw [hskip]
  simp only [if_true]

theorem endArray_spelled (hspace : Blank space)
    (hc : c.rest = space.map some ++ some ']' :: tail) :
    ∃ c', endArray c = .ok c' ∧ c'.rest = tail := by
  have hskip := skipSpace_cons hspace rfl hc
  refine ⟨c.skipSpace.advance, ?_, advance_rest hskip⟩
  unfold endArray
  dsimp only
  rw [hskip]
  simp only [if_true]

theorem nextMember_more (hcomma : Separator first comma) (hspace : Blank space) {name : String}
    {key : List Char} (hkey : SpelledString name key)
    (hc : c.rest = comma.map some ++ (space.map some ++ (key.map some ++ tail))) :
    ∃ c', nextMember first c = .ok (some name, c') ∧ c'.rest = tail := by
  obtain ⟨body, hbody, rfl⟩ := hkey
  have hstring : SpelledString name ('"' :: (body ++ ['"'])) := ⟨body, hbody, rfl⟩
  unfold nextMember
  dsimp only
  cases first with
  | true =>
    cases (show comma = [] from hcomma)
    have hskip := skipSpace_cons hspace (x := '"') rfl hc
    obtain ⟨-, c', hread, hrest⟩ := readString_spelled hstring (c := c.skipSpace) hskip
    refine ⟨c', ?_, hrest⟩
    rw [hskip]
    dsimp only
    rw [if_neg (by decide), hread]
    simp only [if_true]
    rfl
  | false =>
    obtain ⟨before, hbefore, rfl⟩ := hcomma
    have hsplit : c.rest = before.map some ++
        some ',' :: (space.map some ++ (('"' :: (body ++ ['"'])).map some ++ tail)) := by
      rw [hc]
      simp
    have hskip := skipSpace_cons hbefore rfl hsplit
    have hskip' := skipSpace_cons hspace (x := '"') rfl (advance_rest hskip)
    obtain ⟨-, c', hread, hrest⟩ :=
      readString_spelled hstring (c := c.skipSpace.advance.skipSpace) hskip'
    refine ⟨c', ?_, hrest⟩
    rw [hskip]
    dsimp only
    rw [hskip']
    dsimp only
    rw [hread]
    simp only [if_true, Bool.false_eq_true, if_false]
    rfl

theorem nextMember_end (hspace : Blank space)
    (hc : c.rest = space.map some ++ some '\x7d' :: tail) :
    ∃ c', nextMember first c = .ok (none, c') ∧ c'.rest = some '\x7d' :: tail := by
  have hskip := skipSpace_cons hspace rfl hc
  refine ⟨c.skipSpace, ?_, hskip⟩
  unfold nextMember
  dsimp only
  rw [hskip]
  simp only [if_true]

theorem passColon_spelled (hspace : Blank space)
    (hc : c.rest = space.map some ++ some ':' :: tail) :
    ∃ c', passColon c = .ok c' ∧ c'.rest = tail := by
  have hskip := skipSpace_cons hspace rfl hc
  refine ⟨c.skipSpace.advance, ?_, advance_rest hskip⟩
  unfold passColon
  dsimp only
  rw [hskip]
  simp only [if_true]

theorem endObject_spelled (hspace : Blank space)
    (hc : c.rest = space.map some ++ some '\x7d' :: tail) :
    ∃ c', endObject c = .ok c' ∧ c'.rest = tail := by
  have hskip := skipSpace_cons hspace rfl hc
  refine ⟨c.skipSpace.advance, ?_, advance_rest hskip⟩
  unfold endObject
  dsimp only
  rw [hskip]
  simp only [if_true]

end Steps

end Rollout.Json
