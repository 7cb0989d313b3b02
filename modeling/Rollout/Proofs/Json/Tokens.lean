import Rollout.Proofs.Json.Reading

/-!
# Passing over tokens

Strings and numbers are passed over by functions of their own, which check less than the readers.
Wherever a reader delivers a string or a number, the token is passed over as well, up to the same
place.
-/

namespace Rollout.Json

open Text (Symbol)

/-! ### What is left to read -/

theorem length_advance_lt {c : Cursor} {s : Symbol} {rest : List Symbol} (h : c.rest = s :: rest) :
    c.advance.rest.length < c.rest.length := by
  rw [advance_rest h, h]
  exact Nat.lt_succ_self _

theorem length_advance_le (c : Cursor) : c.advance.rest.length ≤ c.rest.length := by
  cases h : c.rest with
  | nil => rw [Cursor.advance, h]; simp only [h, Nat.le_refl]
  | cons s rest => rw [← h]; exact Nat.le_of_lt (length_advance_lt h)

theorem length_skipFrom_le (line column : Nat) (text : List Symbol) :
    (Cursor.skipFrom line column text).rest.length ≤ text.length := by
  induction text generalizing line column with
  | nil => exact Nat.le_refl 0
  | cons s rest ih =>
    unfold Cursor.skipFrom
    split
    · exact Nat.le_succ_of_le (ih _ _)
    · split
      · exact Nat.le_succ_of_le (ih _ _)
      · exact Nat.le_refl _

theorem length_skipSpace_le (c : Cursor) : c.skipSpace.rest.length ≤ c.rest.length :=
  length_skipFrom_le _ _ _

theorem skipSpace_skipFrom (line column : Nat) (text : List Symbol) :
    (Cursor.skipFrom line column text).skipSpace = Cursor.skipFrom line column text := by
  induction text generalizing line column with
  | nil => rfl
  | cons s rest ih =>
    unfold Cursor.skipFrom
    split
    · exact ih _ _
    · split
      · exact ih _ _
      · rename_i hline hspace
        simp only [Cursor.skipSpace, Cursor.skipFrom, hline, hspace, if_false]
        rfl

@[simp] theorem skipSpace_skipSpace (c : Cursor) : c.skipSpace.skipSpace = c.skipSpace :=
  skipSpace_skipFrom _ _ _

theorem length_readWord_le {word : List Char} {c c' : Cursor} (h : readWord word c = .ok c') :
    c'.rest.length ≤ c.rest.length := by
  induction word generalizing c with
  | nil => cases h; exact Nat.le_refl _
  | cons letter word ih =>
    unfold readWord at h
    split at h
    · cases h
    · split at h
      · exact Nat.le_trans (ih h) (length_advance_le c)
      · cases h

/-! ### Escapes -/

theorem length_readHex {c c' : Cursor} {n : Nat} (h : readHex c = .ok (n, c')) :
    c'.rest.length < c.rest.length := by
  unfold readHex at h
  split at h
  · rename_i hc
    split at h
    · cases h
      rw [hc]
      simp only [List.length_cons]
      omega
    · cases h
  · split at h <;> cases h

theorem length_skipEscape {c c' : Cursor} (h : skipEscape c = .ok c') :
    c'.rest.length < c.rest.length := by
  unfold skipEscape at h
  split at h
  · cases h
  · rename_i hc
    split at h
    · obtain ⟨⟨n, c₁⟩, hhex, h⟩ := map_eq_ok.1 h
      cases h
      exact Nat.lt_trans (length_readHex hhex) (length_advance_lt hc)
    · split at h
      · cases h
        exact length_advance_lt hc
      · cases h

theorem expectInPair_ok {expected : Char} {c c' : Cursor} (h : expectInPair expected c = .ok c') :
    c' = c.advance ∧ ∃ rest, c.rest = some expected :: rest := by
  unfold expectInPair at h
  split at h
  · cases h
  · rename_i hc
    split at h
    · rename_i hs
      cases h
      rw [hs] at hc
      exact ⟨rfl, _, hc⟩
    · cases h

theorem skipEscape_code {c : Cursor} {rest : List Symbol} (hc : c.rest = some 'u' :: rest) :
    skipEscape c = (readHex c.advance).map (·.2) := by
  unfold skipEscape
  rw [hc]
  rfl

/-- The two units of a pair, which are read as one character, are passed over one by one. -/
theorem readCodeEscape_ok {c c' : Cursor} {x : Char} (h : readCodeEscape c = .ok (x, c')) :
    ∃ unit middle, readHex c = .ok (unit, middle) ∧ (c' = middle ∨
      ∃ rest, middle.rest = some '\\' :: rest ∧ skipEscape middle.advance = .ok c') := by
  obtain ⟨⟨unit, middle⟩, hunit, h⟩ := bind_eq_ok.1 h
  refine ⟨unit, middle, hunit, ?_⟩
  dsimp only at h
  split at h
  · cases h
  · split at h
    · cases h
      exact .inl rfl
    · obtain ⟨c₂, hslash, hpair⟩ := bind_eq_ok.1 h
      obtain ⟨rfl, rest, hmiddle⟩ := expectInPair_ok hslash
      obtain ⟨c₃, hu, hsecond⟩ := bind_eq_ok.1 hpair
      obtain ⟨rfl, rest', hcode⟩ := expectInPair_ok hu
      obtain ⟨⟨low, c₄⟩, hlow, hend⟩ := bind_eq_ok.1 hsecond
      dsimp only at hend
      split at hend
      · cases hend
      · obtain ⟨-, rfl⟩ := Prod.mk.inj (Except.ok.inj hend)
        refine .inr ⟨rest, hmiddle, ?_⟩
        rw [skipEscape_code hcode, hlow]
        rfl

theorem skipEscape_of_readEscape {c c' : Cursor} {x : Char} (h : readEscape c = .ok (x, c')) :
    skipEscape c = .ok c' ∨
      ∃ middle rest, skipEscape c = .ok middle ∧ middle.rest = some '\\' :: rest ∧
        skipEscape middle.advance = .ok c' := by
  unfold readEscape at h
  split at h
  · cases h
  · rename_i s rest hc
    split at h
    · rename_i hs
      rw [hs] at hc
      obtain ⟨unit, middle, hunit, hnext⟩ := readCodeEscape_ok h
      have hskip : skipEscape c = .ok middle := by
        rw [skipEscape_code hc, hunit]
        rfl
      rcases hnext with rfl | ⟨rest', hmiddle, hlow⟩
      · exact .inl hskip
      · exact .inr ⟨middle, rest', hskip, hmiddle, hlow⟩
    · rename_i hs
      refine .inl ?_
      unfold skipEscape
      rw [hc]
      simp only [hs, if_false]
      split at h
      · cases h
        rfl
      · cases h

/-! ### Strings -/

theorem skipStringFrom_quote {c : Cursor} {rest : List Symbol} (hc : c.rest = some '"' :: rest)
    (n : Nat) : skipStringFrom (n + 1) c = .ok c.advance := by
  rw [skipStringFrom, hc]
  rfl

theorem skipStringFrom_escape {c c' : Cursor} {rest : List Symbol}
    (hc : c.rest = some '\\' :: rest) (h : skipEscape c.advance = .ok c') (n : Nat) :
    skipStringFrom (n + 1) c = skipStringFrom n c' := by
  rw [skipStringFrom, hc]
  simp only [h]
  rfl

theorem skipStringFrom_other {c : Cursor} {s : Symbol} {rest : List Symbol}
    (hc : c.rest = s :: rest) (hquote : s ≠ some '"') (hslash : s ≠ some '\\')
    (hcontrol : (s.any fun x => x.toNat < 0x20) = false) (n : Nat) :
    skipStringFrom (n + 1) c = skipStringFrom n c.advance := by
  rw [skipStringFrom, hc]
  simp only [hquote, hslash, hcontrol, if_false, Bool.false_eq_true]

theorem skipStringFrom_of_readStringFrom {n : Nat} {done : List Char} {stray : Bool}
    {c c' : Cursor} {s : String} (h : readStringFrom n done stray c = .ok (s, c')) {m : Nat}
    (hm : c.rest.length < m) : skipStringFrom m c = .ok c' := by
  -- on the steps of the reader; passing over needs no more steps than there are symbols left
  induction n generalizing done stray c m with
  | zero => cases h
  | succ n ih =>
    obtain ⟨m, rfl⟩ : ∃ k, m = k + 1 := ⟨m - 1, by omega⟩
    rw [readStringFrom] at h
    split at h
    · cases h
    · rename_i rest hc
      have hlength := length_advance_lt hc
      rw [skipStringFrom_other hc (by decide) (by decide) rfl]
      exact ih h (by omega)
    · rename_i x rest hc
      have hlength := length_advance_lt hc
      split at h
      · rename_i hx
        rw [hx] at hc
        split at h
        · cases h
        · cases h
          exact skipStringFrom_quote hc m
      · rename_i hquote
        split at h
        · rename_i hx
          rw [hx] at hc
          split at h
          · cases h
          · rename_i y c₁ hescape
            rcases skipEscape_of_readEscape hescape with
              hskip | ⟨middle, rest', hskip, hmiddle, hlow⟩
            · have hescaped := length_skipEscape hskip
              rw [skipStringFrom_escape hc hskip]
              exact ih h (by omega)
            · have hfirst := length_skipEscape hskip
              have hsecond := length_skipEscape hlow
              have hadvanced := length_advance_lt hmiddle
              obtain ⟨m, rfl⟩ : ∃ k, m = k + 1 := ⟨m - 1, by omega⟩
              rw [skipStringFrom_escape hc hskip, skipStringFrom_escape hmiddle hlow]
              exact ih h (by omega)
        · rename_i hslash
          split at h
          · cases h
          · rename_i hcontrol
            rw [skipStringFrom_other hc (fun heq => hquote (Option.some.inj heq))
              (fun heq => hslash (Option.some.inj heq)) (decide_eq_false hcontrol)]
            exact ih h (by omega)

theorem skipString_of_readString {c c' : Cursor} {s : String} (h : readString c = .ok (s, c')) :
    skipString c = .ok c' :=
  skipStringFrom_of_readStringFrom h (Nat.lt_succ_self _)

theorem length_skipStringFrom {n : Nat} {c c' : Cursor} (h : skipStringFrom n c = .ok c') :
    c'.rest.length < c.rest.length := by
  induction n generalizing c with
  | zero => cases h
  | succ n ih =>
    rw [skipStringFrom] at h
    split at h
    · cases h
    · rename_i s rest hc
      have hlength := length_advance_lt hc
      split at h
      · cases h
        exact hlength
      · split at h
        · split at h
          · cases h
          · rename_i c₁ hescape
            exact Nat.lt_trans (ih h) (Nat.lt_trans (length_skipEscape hescape) hlength)
        · split at h
          · cases h
          · exact Nat.lt_trans (ih h) hlength

theorem length_skipString {c c' : Cursor} (h : skipString c = .ok c') :
    c'.rest.length < c.rest.length := length_skipStringFrom h

/-! ### Numbers -/

theorem length_takeDigits (text : List Symbol) :
    (takeDigits text).1.length + (takeDigits text).2.length = text.length := by
  induction text with
  | nil => rfl
  | cons s rest ih =>
    unfold takeDigits
    split
    · simp only [List.length_cons]
      omega
    · simp only [List.length_nil, List.length_cons, Nat.zero_add]

theorem length_readDigits (c : Cursor) :
    (readDigits c).1.length + (readDigits c).2.rest.length = c.rest.length :=
  length_takeDigits c.rest

theorem readDigits_ne_nil {c : Cursor} {s : Symbol} {rest : List Symbol} {d : Nat}
    (hc : c.rest = s :: rest) (hs : digit? s = some d) : (readDigits c).1 ≠ [] := by
  have hdigits : (readDigits c).1 = (takeDigits c.rest).1 := rfl
  rw [hdigits, hc, takeDigits, hs]
  exact List.cons_ne_nil _ _

theorem cursor_of_finishFloat {negative : Bool} {value : Nat} {exponent : Int} {c c' : Cursor}
    {x : Number} (h : finishFloat negative value exponent c = .ok (x, c')) : c' = c := by
  unfold finishFloat at h
  split at h
  · cases h
  · cases h
    rfl

/-- The place after the sign of an exponent, if it has one. -/
def afterSign (c : Cursor) : Cursor :=
  if c.nextChar? = some '+' || c.nextChar? = some '-' then c.advance else c

theorem readExponent_ok {negative : Bool} {value : Nat} {exponent : Int}
    {c c' : Cursor} {x : Number} (h : readExponent negative value exponent c = .ok (x, c')) :
    c' = (readDigits (afterSign c.advance)).2 ∧ (readDigits (afterSign c.advance)).1 ≠ [] := by
  obtain ⟨down, hdown⟩ : ∃ down, (if c.advance.nextChar? = some '+' then (false, c.advance.advance)
      else if c.advance.nextChar? = some '-' then (true, c.advance.advance)
      else (false, c.advance)) = (down, afterSign c.advance) := by
    unfold afterSign
    by_cases hplus : c.advance.nextChar? = some '+'
    · simp [hplus]
    · by_cases hminus : c.advance.nextChar? = some '-' <;> simp [hplus, hminus]
  unfold readExponent at h
  dsimp only at h
  rw [hdown] at h
  dsimp only at h
  split at h
  · cases h
  · rename_i s rest hc
    split at h
    · cases h
    · rename_i d hd
      refine ⟨?_, readDigits_ne_nil hc hd⟩
      split at h
      · split at h
        · cases h
        · cases h
          rfl
      · exact cursor_of_finishFloat h

theorem skipExponent_eq (c : Cursor) :
    skipExponent c =
      if (readDigits (afterSign c.advance)).1.isEmpty then
        (afterSign c.advance).failNext .invalidNumber
      else .ok (readDigits (afterSign c.advance)).2 := rfl

theorem skipExponent_of_readExponent {negative : Bool} {value : Nat} {exponent : Int}
    {c c' : Cursor} {x : Number} (h : readExponent negative value exponent c = .ok (x, c')) :
    skipExponent c = .ok c' := by
  obtain ⟨rfl, hdigits⟩ := readExponent_ok h
  rw [skipExponent_eq, if_neg]
  rwa [List.isEmpty_iff]

theorem skipScale_of_readScale {negative : Bool} {value : Nat} {exponent : Int}
    {c c' : Cursor} {x : Number} (h : readScale negative value exponent c = .ok (x, c')) :
    skipScale c = .ok c' := by
  unfold readScale at h
  unfold skipScale
  split at h
  · rename_i hmark
    rw [if_pos hmark]
    exact skipExponent_of_readExponent h
  · rename_i hmark
    rw [if_neg hmark, cursor_of_finishFloat h]

theorem readFraction_ok {negative : Bool} {value : Nat} {exponent : Int} {c c' : Cursor}
    {x : Number} (h : readFraction negative value exponent c = .ok (x, c')) :
    (readDigits c.advance).1.isEmpty = false ∧ skipScale (readDigits c.advance).2 = .ok c' := by
  unfold readFraction at h
  dsimp only at h
  split at h
  · split at h <;> cases h
  · rename_i hdigits
    exact ⟨Bool.eq_false_iff.2 hdigits, skipScale_of_readScale h⟩

/-- The place after the integer part of a number. -/
def afterInteger (first : Nat) (c : Cursor) : Cursor :=
  if first = 0 then c.advance else (readDigits c).2

theorem skipNumber_eq {c : Cursor} {s : Symbol} {rest : List Symbol} {first : Nat}
    (hc : c.rest = s :: rest) (hfirst : digit? s = some first) :
    skipNumber c =
      if first = 0 && ((afterInteger first c).rest.head?.bind digit?).isSome then
        (afterInteger first c).failNext .invalidNumber
      else if (afterInteger first c).nextChar? = some '.' then
        if (readDigits (afterInteger first c).advance).1.isEmpty then
          (readDigits (afterInteger first c).advance).2.failNext .invalidNumber
        else skipScale (readDigits (afterInteger first c).advance).2
      else skipScale (afterInteger first c) := by
  unfold skipNumber
  rw [hc, List.head?_cons, Option.bind_some, hfirst]
  rfl

theorem skipNumber_of_readNumber {negative : Bool} {c c' : Cursor} {x : Number}
    (h : readNumber negative c = .ok (x, c')) : skipNumber c = .ok c' := by
  unfold readNumber at h
  split at h
  · cases h
  · rename_i s rest hc
    split at h
    · cases h
    · rename_i first hfirst
      obtain ⟨digits, hstart⟩ : ∃ digits, (if first = 0 then ([0], c.advance) else readDigits c) =
          (digits, afterInteger first c) := by
        unfold afterInteger
        split
        · exact ⟨[0], rfl⟩
        · exact ⟨(readDigits c).1, rfl⟩
      rw [hstart] at h
      dsimp only at h
      rw [skipNumber_eq hc hfirst]
      split at h
      · cases h
      · rename_i hzero
        rw [if_neg hzero]
        split at h
        · rename_i hpoint
          obtain ⟨hdigits, hscale⟩ := readFraction_ok h
          rw [if_pos hpoint, hdigits]
          exact hscale
        · rename_i hpoint
          rw [if_neg hpoint]
          unfold skipScale
          split at h
          · rename_i hmark
            rw [if_pos hmark]
            exact skipExponent_of_readExponent h
          · rename_i hmark
            rw [if_neg hmark]
            split at h
            · cases h
              rfl
            · rw [cursor_of_finishFloat h]

theorem length_afterSign_le (c : Cursor) : (afterSign c).rest.length ≤ c.rest.length := by
  unfold afterSign
  split
  · exact length_advance_le c
  · exact Nat.le_refl _

theorem length_skipScale_le {c c' : Cursor} (h : skipScale c = .ok c') :
    c'.rest.length ≤ c.rest.length := by
  unfold skipScale at h
  split at h
  · rw [skipExponent_eq] at h
    split at h
    · cases h
    · cases h
      have hdigits := length_readDigits (afterSign c.advance)
      have hsign := length_afterSign_le c.advance
      have hmark := length_advance_le c
      omega
  · cases h
    exact Nat.le_refl _

theorem length_afterInteger_lt {c : Cursor} {s : Symbol} {rest : List Symbol} {first : Nat}
    (hc : c.rest = s :: rest) (hfirst : digit? s = some first) :
    (afterInteger first c).rest.length < c.rest.length := by
  unfold afterInteger
  split
  · exact length_advance_lt hc
  · have hsome := List.length_pos_iff.2 (readDigits_ne_nil hc hfirst)
    have hdigits := length_readDigits c
    omega

theorem length_skipNumber {c c' : Cursor} (h : skipNumber c = .ok c') :
    c'.rest.length < c.rest.length := by
  cases hc : c.rest with
  | nil => rw [skipNumber, hc] at h; cases h
  | cons s rest =>
    cases hfirst : digit? s with
    | none => rw [skipNumber, hc, List.head?_cons, Option.bind_some, hfirst] at h; cases h
    | some first =>
      have hinteger := length_afterInteger_lt hc hfirst
      have hpoint := length_advance_le (afterInteger first c)
      have hdigits := length_readDigits (afterInteger first c).advance
      rw [skipNumber_eq hc hfirst] at h
      rw [← hc]
      split at h
      · cases h
      · split at h
        · split at h
          · cases h
          · have hscale := length_skipScale_le h
            omega
        · have hscale := length_skipScale_le h
          omega

end Rollout.Json
