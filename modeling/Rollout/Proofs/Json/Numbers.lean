import Rollout.Proofs.Json.Tokens

/-!
# Reading spelled numbers

What the reader of numbers makes of each literal, and that any literal is passed over.  An integer
of 64 bits is read as itself.  A literal that is no such integer, whatever its size and form, is
never read as an integer.
-/

namespace Rollout.Json

open Text (Symbol)

/-! ### The end of a number -/

/-- Whether a number that stands before a text ends there. -/
def EndsNumber (tail : List Symbol) : Prop :=
  ∀ x, tail.head? = some (some x) → x.isDigit = false ∧ x ≠ '.' ∧ x ≠ 'e' ∧ x ≠ 'E'

/-- Whether no digit stands at the front of a text. -/
def NoDigit (tail : List Symbol) : Prop := tail.head?.bind digit? = none

theorem noDigit_of_char {x : Char} (h : x.isDigit = false) (rest : List Symbol) :
    NoDigit (some x :: rest) := by
  have hnot : ¬x.isDigit = true := by rw [h]; exact Bool.false_ne_true
  exact if_neg hnot

theorem nextChar?_of_rest {c : Cursor} {x : Char} {rest : List Symbol}
    (hc : c.rest = some x :: rest) : c.nextChar? = some x := by
  unfold Cursor.nextChar?
  rw [hc]
  rfl

theorem nextChar?_ne_of_endsNumber {c : Cursor} (h : EndsNumber c.rest) :
    c.nextChar? ≠ some '.' ∧ c.nextChar? ≠ some 'e' ∧ c.nextChar? ≠ some 'E' := by
  have hjoin : ∀ x, c.nextChar? = some x → c.rest.head? = some (some x) := by
    intro x hx
    exact Option.join_eq_some_iff.1 hx
  refine ⟨?_, ?_, ?_⟩
  · exact fun hx => (h _ (hjoin _ hx)).2.1 rfl
  · exact fun hx => (h _ (hjoin _ hx)).2.2.1 rfl
  · exact fun hx => (h _ (hjoin _ hx)).2.2.2 rfl

section Ends

variable {tail : List Symbol} (h : EndsNumber tail)

include h

theorem noDigit_of_endsNumber : NoDigit tail := by
  cases tail with
  | nil => rfl
  | cons s rest =>
    cases s with
    | none => rfl
    | some x => exact noDigit_of_char (h x rfl).1 rest

theorem noDigit_exponent {exponent : List Char} (hexponent : SpelledExponent exponent) :
    NoDigit (exponent.map some ++ tail) := by
  cases hexponent with
  | none => exact noDigit_of_endsNumber h
  | digits hmark =>
    rcases hmark with rfl | rfl
    · rfl
    · rfl

theorem noDigit_scale (l : Literal) : NoDigit (l.scale.map some ++ tail) := by
  obtain ⟨negative, whole, fraction, exponent, hfraction, hexponent⟩ := l
  cases hfraction with
  | none => exact noDigit_exponent h hexponent
  | digits => rfl

/-- An exponent is told by its mark. -/
theorem marked_iff {exponent : List Char} (hexponent : SpelledExponent exponent) {c : Cursor}
    (hc : c.rest = exponent.map some ++ tail) :
    c.nextChar? ≠ some '.' ∧
      ((c.nextChar? = some 'e' || c.nextChar? = some 'E') = true ↔ exponent ≠ []) := by
  cases hexponent with
  | none =>
    obtain ⟨hpoint, he, hE⟩ := nextChar?_ne_of_endsNumber (c := c) (by rw [hc]; exact h)
    refine ⟨hpoint, ?_⟩
    simp only [he, hE, decide_false, Bool.or_self, Bool.false_eq_true, ne_eq, not_true]
  | @digits mark sign digits hmark =>
    rw [nextChar?_of_rest (c := c) (x := mark) hc]
    rcases hmark with rfl | rfl
    · simp
    · simp

end Ends

/-! ### Digits -/

def digitValues (digits : List Char) : List Nat := digits.map fun x => x.toNat - '0'.toNat

theorem takeDigits_map {digits : List Char} (hdigits : Digits digits) {tail : List Symbol}
    (htail : NoDigit tail) : takeDigits (digits.map some ++ tail) = (digitValues digits, tail) := by
  induction digits with
  | nil =>
    cases tail with
    | nil => rfl
    | cons s rest =>
      have hnone : digit? s = none := htail
      simp only [List.map_nil, List.nil_append, takeDigits, hnone]
      rfl
  | cons x digits ih =>
    have hx : digit? (some x) = some (x.toNat - '0'.toNat) := if_pos (hdigits x List.mem_cons_self)
    simp only [List.map_cons, List.cons_append, takeDigits, hx]
    rw [ih fun y hy => hdigits y (List.mem_cons_of_mem _ hy)]
    rfl

theorem readDigits_spelled {digits : List Char} (hdigits : Digits digits) {tail : List Symbol}
    (htail : NoDigit tail) {c : Cursor} (hc : c.rest = digits.map some ++ tail) :
    (readDigits c).1 = digitValues digits ∧ (readDigits c).2.rest = tail := by
  simp only [readDigits, hc, takeDigits_map hdigits htail, and_self]

theorem isEmpty_digitValues {digits : List Char} (h : digits ≠ []) :
    (digitValues digits).isEmpty = false := by
  rw [digitValues, List.isEmpty_eq_false_iff]
  exact fun hnil => h (List.map_eq_nil_iff.1 hnil)

/-! ### Integers that fit 64 bits -/

theorem le_foldl_digits (digits : List Nat) (value : Nat) :
    value ≤ digits.foldl (fun n d => n * 10 + d) value := by
  induction digits generalizing value with
  | nil => exact Nat.le_refl _
  | cons d digits ih =>
    have hstep := ih (value * 10 + d)
    rw [List.foldl_cons]
    omega

theorem absorb_eq {digits : List Nat} {value : Nat}
    (h : digits.foldl (fun n d => n * 10 + d) value < UInt64.size) :
    absorb value digits = (digits.foldl (fun n d => n * 10 + d) value, digits.length) := by
  induction digits generalizing value with
  | nil => rfl
  | cons d digits ih =>
    rw [List.foldl_cons] at h
    have hfits : value * 10 + d < UInt64.size := Nat.lt_of_le_of_lt (le_foldl_digits digits _) h
    simp only [absorb, hfits, if_true, ih h, List.foldl_cons, List.length_cons]

/-- Digits of a number that does not fit 64 bits are left over. -/
theorem absorb_lt {digits : List Nat} {value : Nat} (hvalue : value < UInt64.size)
    (h : UInt64.size ≤ digits.foldl (fun n d => n * 10 + d) value) :
    (absorb value digits).2 < digits.length := by
  induction digits generalizing value with
  | nil => exact absurd hvalue (Nat.not_lt.2 h)
  | cons d digits ih =>
    rw [List.foldl_cons] at h
    by_cases hfits : value * 10 + d < UInt64.size
    · simp only [absorb, hfits, if_true, List.length_cons]
      exact Nat.succ_lt_succ (ih hfits h)
    · simp only [absorb, hfits, if_false, List.length_cons]
      exact Nat.succ_pos _

theorem foldl_toDigits (n : Nat) :
    (digitValues (Nat.toDigits 10 n)).foldl (fun n d => n * 10 + d) 0 = n := by
  have hvalue := Nat.ofDigitChars_ten_toDigits (n := n)
  rw [Nat.ofDigitChars_eq_foldl] at hvalue
  rw [digitValues, List.foldl_map]
  refine Eq.trans ?_ hvalue
  congr 1
  funext m x
  rw [Nat.mul_comm]

/-- Only zero is written with a leading zero. -/
theorem head_toDigits {n : Nat} (h : 0 < n) : (Nat.toDigits 10 n).head? ≠ some '0' := by
  induction n using Nat.strongRecOn with
  | ind n ih =>
    rw [Nat.toDigits_eq_if (by decide)]
    split
    · rename_i hlt
      have hall : ∀ d : Fin 10, 0 < d.val → [Nat.digitChar d.val].head? ≠ some '0' := by decide
      exact hall ⟨n, hlt⟩ h
    · obtain ⟨x, rest, hx⟩ :=
        List.exists_cons_of_ne_nil (Nat.toDigits_ne_nil (n := n / 10) (b := 10))
      have hhead := ih (n / 10) (by omega) (by omega)
      rw [hx] at hhead ⊢
      exact hhead

/-! ### Behind the integer part -/

/-- What is left to read of a number behind its integer part. -/
def readRest (negative : Bool) (n : Nat) (stop : Cursor) : Outcome Number :=
  let (value, used) := absorb 0 (digitValues (Nat.toDigits 10 n))
  let dropped := (digitValues (Nat.toDigits 10 n)).length - used
  if stop.nextChar? = some '.' then readFraction negative value dropped stop
  else if stop.nextChar? = some 'e' || stop.nextChar? = some 'E' then
    readExponent negative value dropped stop
  else if dropped = 0 then .ok (integerValue negative value, stop)
  else finishFloat negative value dropped stop

/-- What is left to pass over of a number behind its integer part. -/
def skipRest (stop : Cursor) : Except Error Cursor :=
  if stop.nextChar? = some '.' then
    if (readDigits stop.advance).1.isEmpty then (readDigits stop.advance).2.failNext .invalidNumber
    else skipScale (readDigits stop.advance).2
  else skipScale stop

theorem eq_zero_of_value {x : Char} (hx : x.isDigit = true) (h : x.toNat - '0'.toNat = 0) :
    x = '0' := by
  have hle : '0'.toNat ≤ x.toNat := by
    simp only [Char.isDigit, Bool.and_eq_true, decide_eq_true_eq] at hx
    exact hx.1
  exact Char.toNat_inj.1 (by omega)

/-- Reading and passing over a number both come to the place behind its integer part. -/
theorem behind_integer {n : Nat} {c : Cursor} {tail : List Symbol} (htail : NoDigit tail)
    (hc : c.rest = (Nat.toDigits 10 n).map some ++ tail) :
    ∃ stop : Cursor, stop.rest = tail ∧ skipNumber c = skipRest stop ∧
      ∀ negative, readNumber negative c = readRest negative n stop := by
  obtain ⟨x, digits, hdigits, hx⟩ := head_toDigits_solid n
  have hdigit : digit? (some x) = some (x.toNat - '0'.toNat) := if_pos hx
  have hfirst : c.rest = some x :: (digits.map some ++ tail) := by
    rw [hc, hdigits]
    rfl
  have hread := readDigits_spelled (isDigit_toDigits n) htail hc
  obtain ⟨hstop, hpair⟩ : (afterInteger (x.toNat - '0'.toNat) c).rest = tail ∧
      (if x.toNat - '0'.toNat = 0 then ([0], c.advance) else readDigits c) =
        (digitValues (Nat.toDigits 10 n), afterInteger (x.toNat - '0'.toNat) c) := by
    unfold afterInteger
    by_cases hzero : x.toNat - '0'.toNat = 0
    · -- a leading zero stands alone
      have hn : n = 0 := by
        rcases Nat.eq_zero_or_pos n with hn | hpos
        · exact hn
        · have hhead := head_toDigits hpos
          rw [hdigits, eq_zero_of_value hx hzero] at hhead
          exact absurd rfl hhead
      subst hn
      rw [Nat.toDigits_zero] at hc hdigits ⊢
      rw [if_pos hzero, if_pos hzero]
      exact ⟨advance_rest hc, rfl⟩
    · rw [if_neg hzero, if_neg hzero, ← hread.1]
      exact ⟨hread.2, rfl⟩
  have hnone : (afterInteger (x.toNat - '0'.toNat) c).rest.head?.bind digit? = none := by
    rw [hstop]
    exact htail
  refine ⟨afterInteger (x.toNat - '0'.toNat) c, hstop, ?_, fun negative => ?_⟩
  · rw [skipNumber_eq hfirst hdigit, hnone]
    simp only [Option.isSome_none, Bool.and_false, Bool.false_eq_true, if_false]
    rfl
  · unfold readNumber
    rw [hfirst]
    dsimp only
    rw [hdigit]
    dsimp only
    rw [hpair]
    dsimp only
    rw [hnone]
    simp only [Option.isSome_none, Bool.and_false, Bool.false_eq_true, if_false]
    rfl

/-! ### Passing over a literal -/

section Skipping

variable {c : Cursor} {tail : List Symbol}

theorem afterSign_spelled {sign digits : List Char}
    (hsign : sign = [] ∨ sign = ['+'] ∨ sign = ['-']) (hdigits : Digits digits)
    (hsome : digits ≠ []) (hc : c.rest = sign.map some ++ (digits.map some ++ tail)) :
    (afterSign c).rest = digits.map some ++ tail := by
  unfold afterSign
  rcases hsign with rfl | rfl | rfl
  · obtain ⟨x, more, rfl⟩ := List.exists_cons_of_ne_nil hsome
    have hx := hdigits x List.mem_cons_self
    have hunsigned : ¬(some x = some '+' || some x = some '-') = true := by
      simp only [Option.some.injEq, Bool.or_eq_true, decide_eq_true_eq]
      rintro (rfl | rfl)
      · exact absurd hx (by decide)
      · exact absurd hx (by decide)
    rw [nextChar?_of_rest (c := c) (x := x) hc, if_neg hunsigned]
    exact hc
  · rw [nextChar?_of_rest (c := c) (x := '+') hc]
    exact advance_rest hc
  · rw [nextChar?_of_rest (c := c) (x := '-') hc]
    exact advance_rest hc

theorem skipScale_spelled {exponent : List Char} (h : SpelledExponent exponent)
    (htail : EndsNumber tail) (hc : c.rest = exponent.map some ++ tail) :
    ∃ c', skipScale c = .ok c' ∧ c'.rest = tail := by
  obtain ⟨-, hmarked⟩ := marked_iff htail h hc
  unfold skipScale
  cases h with
  | none => exact ⟨c, if_neg (mt hmarked.1 (fun hne => hne rfl)), hc⟩
  | @digits mark sign digits hmark hsign hdigits hsome =>
    have hstart : c.rest = some mark :: (sign.map some ++ (digits.map some ++ tail)) := by
      rw [hc]
      simp
    obtain ⟨hvalues, hrest⟩ := readDigits_spelled hdigits (noDigit_of_endsNumber htail)
      (afterSign_spelled hsign hdigits hsome (advance_rest hstart))
    refine ⟨(readDigits (afterSign c.advance)).2, ?_, hrest⟩
    rw [if_pos (hmarked.2 (List.cons_ne_nil _ _)), skipExponent_eq, hvalues,
      isEmpty_digitValues hsome]
    rfl

theorem skipRest_spelled (l : Literal) (htail : EndsNumber tail)
    (hc : c.rest = l.scale.map some ++ tail) : ∃ c', skipRest c = .ok c' ∧ c'.rest = tail := by
  obtain ⟨negative, whole, fraction, exponent, hfraction, hexponent⟩ := l
  rw [Literal.scale, List.map_append, List.append_assoc] at hc
  unfold skipRest
  cases hfraction with
  | none =>
    rw [if_neg (marked_iff htail hexponent hc).1]
    exact skipScale_spelled hexponent htail hc
  | @digits digits hdigits hsome =>
    obtain ⟨hvalues, hrest⟩ :=
      readDigits_spelled hdigits (noDigit_exponent htail hexponent) (advance_rest hc)
    rw [if_pos (nextChar?_of_rest (x := '.') hc), hvalues, isEmpty_digitValues hsome]
    exact skipScale_spelled hexponent htail hrest

/-- The digits of any literal are passed over. -/
theorem skipNumber_spelled (l : Literal) (htail : EndsNumber tail)
    (hc : c.rest = (Nat.toDigits 10 l.whole).map some ++ (l.scale.map some ++ tail)) :
    ∃ c', skipNumber c = .ok c' ∧ c'.rest = tail := by
  obtain ⟨stop, hstop, hskip, -⟩ := behind_integer (noDigit_scale htail l) hc
  rw [hskip]
  exact skipRest_spelled l htail hstop

end Skipping

/-! ### Reading a literal -/

section Doubles

variable {negative : Bool} {value : Nat} {exponent : Int} {c c' : Cursor} {x : Number}

theorem float_of_finishFloat (h : finishFloat negative value exponent c = .ok (x, c')) :
    ∃ y, x = .float y := by
  unfold finishFloat at h
  split at h
  · cases h
  · cases h
    exact ⟨_, rfl⟩

theorem float_of_readExponent (h : readExponent negative value exponent c = .ok (x, c')) :
    ∃ y, x = .float y := by
  unfold readExponent at h
  dsimp only at h
  generalize (if c.advance.nextChar? = some '+' then (false, c.advance.advance)
    else if c.advance.nextChar? = some '-' then (true, c.advance.advance)
    else (false, c.advance)) = signed at h
  split at h
  · cases h
  · split at h
    · cases h
    · split at h
      · split at h
        · cases h
        · cases h
          exact ⟨_, rfl⟩
      · exact float_of_finishFloat h

theorem float_of_readFraction (h : readFraction negative value exponent c = .ok (x, c')) :
    ∃ y, x = .float y := by
  unfold readFraction at h
  dsimp only at h
  split at h
  · split at h <;> cases h
  · unfold readScale at h
    split at h
    · exact float_of_readExponent h
    · exact float_of_finishFloat h

end Doubles

section Literals

variable {l : Literal} {c : Cursor} {tail : List Symbol}

theorem integer?_eq_some {i : Int} (h : l.integer? = some i) :
    l.scale = [] ∧ l.whole < UInt64.size ∧ integerValue l.negative l.whole = .int i := by
  have hmin : Int64.minValue.toInt = -9223372036854775808 := rfl
  have hsize : UInt64.size = 18446744073709551616 := rfl
  unfold Literal.integer? at h
  split at h
  · cases h
  · rename_i hscale
    refine ⟨Decidable.not_not.1 hscale, ?_⟩
    unfold integerValue
    split at h
    · rename_i hnegative
      split at h
      · rename_i hfits
        cases h
        exact ⟨by omega, by rw [if_pos hnegative, if_pos hfits]⟩
      · cases h
    · rename_i hnegative
      split at h
      · rename_i hfits
        cases h
        exact ⟨hfits, by rw [if_neg hnegative]⟩
      · cases h

/-- A literal that is an integer of 64 bits is read as that integer. -/
theorem readNumber_integer {i : Int} (h : l.integer? = some i) (htail : EndsNumber tail)
    (hc : c.rest = (Nat.toDigits 10 l.whole).map some ++ (l.scale.map some ++ tail)) :
    ∃ c', readNumber l.negative c = .ok (.int i, c') ∧ c'.rest = tail := by
  obtain ⟨hscale, hfits, hvalue⟩ := integer?_eq_some h
  obtain ⟨stop, hstop, -, hread⟩ := behind_integer (noDigit_scale htail l) hc
  rw [hscale, List.map_nil, List.nil_append] at hstop
  obtain ⟨hpoint, he, hE⟩ := nextChar?_ne_of_endsNumber (c := stop) (by rw [hstop]; exact htail)
  have habsorb := @absorb_eq (digitValues (Nat.toDigits 10 l.whole)) 0
    (by rw [foldl_toDigits]; exact hfits)
  rw [foldl_toDigits] at habsorb
  refine ⟨stop, ?_, hstop⟩
  rw [hread, readRest, habsorb]
  simp only [hpoint, he, hE, decide_false, Bool.or_self, Bool.false_eq_true, if_false, Nat.sub_self,
    if_true, hvalue]

theorem float_of_integerValue (hscale : l.scale = []) (hfits : l.whole < UInt64.size)
    (h : l.integer? = none) : ∃ y, integerValue l.negative l.whole = .float y := by
  unfold integerValue
  by_cases hnegative : l.negative = true
  · have hother : ¬(0 < l.whole ∧ Int64.minValue.toInt ≤ -(l.whole : Int)) := fun hsmall => by
      rw [Literal.integer?_of_negative hscale hnegative hsmall] at h
      cases h
    rw [if_pos hnegative, if_neg hother]
    exact ⟨_, rfl⟩
  · rw [Literal.integer?_of_unsigned hscale hnegative hfits] at h
    cases h

theorem float_of_readRest (h : l.integer? = none) (htail : EndsNumber tail) {stop c' : Cursor}
    (hstop : stop.rest = l.scale.map some ++ tail) {x : Number}
    (hread : readRest l.negative l.whole stop = .ok (x, c')) : ∃ y, x = .float y := by
  unfold readRest at hread
  dsimp only at hread
  split at hread
  · exact float_of_readFraction hread
  · rename_i hpoint
    split at hread
    · exact float_of_readExponent hread
    · rename_i hmark
      split at hread
      · rename_i hdropped
        -- nothing follows the integer part, and all of its digits fit
        have hscale : l.scale = [] := by
          obtain ⟨negative, whole, fraction, exponent, hfraction, hexponent⟩ := l
          cases hfraction with
          | none =>
            have hmarked := (marked_iff htail hexponent hstop).2
            exact Decidable.byContradiction fun hne => hmark (hmarked.2 hne)
          | digits => exact absurd (nextChar?_of_rest (x := '.') hstop) hpoint
        have hfits : l.whole < UInt64.size := by
          refine Nat.not_le.1 fun hlarge => ?_
          have hlt := @absorb_lt (digitValues (Nat.toDigits 10 l.whole)) 0 (by decide)
            (by rw [foldl_toDigits]; exact hlarge)
          omega
        have habsorb := @absorb_eq (digitValues (Nat.toDigits 10 l.whole)) 0
          (by rw [foldl_toDigits]; exact hfits)
        rw [foldl_toDigits] at habsorb
        rw [habsorb] at hread
        obtain ⟨y, hy⟩ := float_of_integerValue hscale hfits h
        rw [hy] at hread
        cases hread
        exact ⟨y, rfl⟩
      · exact float_of_finishFloat hread

/-- A literal that is no integer of 64 bits is not read as an integer. -/
theorem readNumber_decimal (h : l.integer? = none) (htail : EndsNumber tail)
    (hc : c.rest = (Nat.toDigits 10 l.whole).map some ++ (l.scale.map some ++ tail)) {x : Number}
    {c' : Cursor} (hread : readNumber l.negative c = .ok (x, c')) : ∃ y, x = .float y := by
  obtain ⟨stop, hstop, -, heq⟩ := behind_integer (noDigit_scale htail l) hc
  rw [heq] at hread
  exact float_of_readRest h htail hstop hread

end Literals

end Rollout.Json
