import Mathlib.Tactic.SplitIfs
import Rollout.Json.Reader
import Rollout.Json.Skip

/-!
# The lines of errors

Wherever reading stops, the line that is reported is one of the lines of the text, or the one that
its last line feed begins.  What the readers keep is that the line of a cursor and the line feeds
that are left make up the number of this last line (`Cursor.Inside`).
-/

namespace Rollout.Json

open Text (Symbol)

/-- Whether a cursor stands in a text that ends on a given line. -/
structure Cursor.Inside (last : Nat) (c : Cursor) : Prop where
  one_le : 1 ≤ c.line
  add_count : c.line + c.rest.count (some '\n') = last

/-- Whether a line is one of those of a text that ends on a given line. -/
def Error.Inside (last : Nat) (e : Error) : Prop := 1 ≤ e.line ∧ e.line ≤ last

/-- Whether reading stops inside a text, after a result or at an error. -/
def Stays {α : Type} (last : Nat) (place : α → Cursor) : Except Error α → Prop
  | .ok a => (place a).Inside last
  | .error e => e.Inside last

/-- Whether a reader stays inside a text in which it starts. -/
def StaysInside {α : Type} (last : Nat) (reader : Cursor → Outcome α) : Prop :=
  ∀ {c : Cursor}, c.Inside last → Stays last Prod.snd (reader c)

variable {α β σ : Type} {last : Nat} {c : Cursor}

/-! ### Results -/

theorem Stays.bind {place : α → Cursor} {place' : β → Cursor} {result : Except Error α}
    {next : α → Except Error β} (h : Stays last place result)
    (hnext : ∀ a, (place a).Inside last → Stays last place' (next a)) :
    Stays last place' (result >>= next) := by
  cases result with
  | ok a => exact hnext a h
  | error e => exact h

theorem Stays.map {place : α → Cursor} {place' : β → Cursor} {result : Except Error α} {f : α → β}
    (h : Stays last place result) (hplace : ∀ a, place' (f a) = place a) :
    Stays last place' (result.map f) := by
  cases result with
  | ok a =>
    have hsame : (place' (f a)).Inside last := (hplace a).symm ▸ h
    exact hsame
  | error e => exact h

namespace Cursor.Inside

theorem line_le (h : c.Inside last) : c.line ≤ last :=
  Nat.le.intro h.add_count

theorem errorHere (h : c.Inside last) (cause : Cause) : (c.errorHere cause).Inside last :=
  ⟨h.one_le, h.line_le⟩

theorem errorNext (h : c.Inside last) (cause : Cause) : (c.errorNext cause).Inside last := by
  have hline := h.one_le
  have hcount := h.add_count
  unfold Cursor.errorNext
  split
  · exact h.errorHere cause
  · rename_i s rest hrest
    split
    · -- the error stands behind a line feed that is still to be read
      rename_i hfeed
      rw [hrest, hfeed, List.count_cons_self] at hcount
      exact ⟨Nat.le_add_left 1 c.line, by dsimp only; omega⟩
    · exact h.errorHere cause

theorem fail (h : c.Inside last) {place : α → Cursor} (fault : Fault) :
    Stays last place (c.fail fault) :=
  h.errorHere (.malformed fault)

theorem failNext (h : c.Inside last) {place : α → Cursor} (fault : Fault) :
    Stays last place (c.failNext fault) :=
  h.errorNext (.malformed fault)

theorem mismatch (h : c.Inside last) {place : α → Cursor} (m : Mismatch) :
    Stays last place (c.mismatch m) :=
  h.errorHere (.mismatch m)

/-! ### Moving on -/

/-- Going on by symbols of a line, whatever becomes of the column. -/
theorem of_count {c' : Cursor} (h : c.Inside last) (hline : c'.line = c.line)
    (hcount : c'.rest.count (some '\n') = c.rest.count (some '\n')) : c'.Inside last :=
  ⟨hline ▸ h.one_le, by rw [hline, hcount]; exact h.add_count⟩

theorem of_column (h : c.Inside last) (column : Nat) : Inside last ⟨c.rest, c.line, column⟩ :=
  h.of_count rfl rfl

theorem after {s : Symbol} {rest : List Symbol} {line column : Nat}
    (h : Inside last ⟨s :: rest, line, column⟩) (column' : Nat) :
    (Cursor.after s rest line column').Inside last := by
  have hcount := h.add_count
  unfold Cursor.after
  split
  · rename_i hfeed
    subst hfeed
    rw [List.count_cons_self] at hcount
    exact ⟨Nat.le_add_left 1 line, by dsimp only at hcount ⊢; omega⟩
  · rename_i hother
    exact h.of_count rfl (List.count_cons_of_ne hother).symm

theorem advance (h : c.Inside last) : c.advance.Inside last := by
  obtain ⟨rest, line, column⟩ := c
  cases rest with
  | nil => exact h
  | cons s rest => exact h.after _

theorem skipSpace (h : c.Inside last) : c.skipSpace.Inside last := by
  obtain ⟨rest, line, column⟩ := c
  unfold Cursor.skipSpace
  dsimp only
  induction rest generalizing line column with
  | nil => exact h
  | cons s rest ih =>
    have hafter := h.after
    rw [skipFrom]
    unfold Cursor.after at hafter
    split
    · rename_i hfeed
      exact ih _ _ (by simpa only [if_pos hfeed] using hafter 0)
    · rename_i hother
      split
      · have hsame : rest.count (some '\n') = (s :: rest).count (some '\n') :=
          (List.count_cons_of_ne hother).symm
        exact ih _ _ (h.of_count rfl hsame)
      · exact h

theorem skipBytes (h : c.Inside last) (n : Nat) : (c.skipBytes n).Inside last := by
  obtain ⟨rest, line, column⟩ := c
  unfold Cursor.skipBytes
  dsimp only
  fun_induction skipBytesFrom line column n rest with
  | case1 => exact h
  | case2 => exact h
  | case3 line column n rest ih => exact ih (h.after 0)
  | case4 line column n s rest hother hwhole ih =>
    exact ih (h.of_count rfl (List.count_cons_of_ne hother).symm)
  | case5 line column n s rest hother hpart =>
    exact h.of_count rfl (List.count_cons_of_ne hother).symm

end Cursor.Inside

open Cursor (Inside)

/-! ### Words and strings -/

theorem stays_readWord (h : c.Inside last) (word : List Char) :
    Stays last id (readWord word c) := by
  induction word generalizing c with
  | nil => exact h
  | cons letter word ih =>
    rw [readWord]
    split
    · exact h.fail _
    · split
      · exact ih h.advance
      · exact h.failNext _

theorem ne_lineFeed_of_hexValue {s : Symbol} {n : Nat} (h : hexValue s = some n) :
    s ≠ some '\n' := by
  rintro rfl
  cases h

theorem staysInside_readHex : StaysInside last readHex := by
  intro c h
  unfold readHex
  split
  · rename_i s₁ s₂ s₃ s₄ rest hrest
    split
    · rename_i h₁ h₂ h₃ h₄
      refine h.of_count rfl ?_
      rw [hrest, List.count_cons_of_ne (ne_lineFeed_of_hexValue h₁),
        List.count_cons_of_ne (ne_lineFeed_of_hexValue h₂),
        List.count_cons_of_ne (ne_lineFeed_of_hexValue h₃),
        List.count_cons_of_ne (ne_lineFeed_of_hexValue h₄)]
    · exact (h.skipBytes 4).fail _
  · split
    · exact (h.skipBytes 4).fail _
    · exact (h.skipBytes 4).fail _

theorem stays_expectInPair (h : c.Inside last) (expected : Char) :
    Stays last id (expectInPair expected c) := by
  unfold expectInPair
  split
  · exact h.fail _
  · split
    · exact h.advance
    · exact h.failNext _

theorem staysInside_readCodeEscape : StaysInside last readCodeEscape := by
  intro c h
  refine (staysInside_readHex h).bind fun ⟨unit, c⟩ h => ?_
  dsimp only at h ⊢
  split
  · exact h.fail _
  · split
    · exact h
    · refine (stays_expectInPair h _).bind fun c h => ?_
      refine (stays_expectInPair h _).bind fun c h => ?_
      refine (staysInside_readHex h).bind fun ⟨low, c⟩ h => ?_
      dsimp only at h ⊢
      split
      · exact h.fail _
      · exact h

theorem staysInside_readEscape : StaysInside last readEscape := by
  intro c h
  unfold readEscape
  split
  · exact h.fail _
  · split
    · exact staysInside_readCodeEscape h.advance
    · split
      · exact h.advance
      · exact h.failNext _

theorem stays_readStringFrom (h : c.Inside last) (n : Nat) (done : List Char) (stray : Bool) :
    Stays last Prod.snd (readStringFrom n done stray c) := by
  induction n generalizing c done stray with
  | zero => exact h.fail _
  | succ n ih =>
    rw [readStringFrom.eq_def]
    dsimp only
    split
    · exact h.fail _
    · exact ih h.advance _ _
    · split
      · split
        · exact h.fail _
        · exact h.advance
      · split
        · have hescape := staysInside_readEscape h.advance
          split
          · rename_i e heq
            rw [heq] at hescape
            exact hescape
          · rename_i y c' heq
            rw [heq] at hescape
            exact ih hescape _ _
        · split
          · exact h.advance.fail _
          · exact ih h.advance _ _

theorem staysInside_readString : StaysInside last readString :=
  fun h => stays_readStringFrom h _ _ _

theorem stays_skipEscape (h : c.Inside last) : Stays last id (skipEscape c) := by
  unfold skipEscape
  split
  · exact h.fail _
  · split
    · exact (staysInside_readHex h.advance).map fun _ => rfl
    · split
      · exact h.advance
      · exact h.failNext _

theorem stays_skipString (h : c.Inside last) : Stays last id (skipString c) := by
  unfold skipString
  generalize c.rest.length + 1 = n
  induction n generalizing c with
  | zero => exact h.fail _
  | succ n ih =>
    rw [skipStringFrom]
    split
    · exact h.fail _
    · split
      · exact h.advance
      · split
        · have hescape := stays_skipEscape h.advance
          split
          · rename_i e heq
            rw [heq] at hescape
            exact hescape
          · rename_i c' heq
            rw [heq] at hescape
            exact ih hescape
        · split
          · exact h.fail _
          · exact ih h.advance

/-! ### Numbers -/

theorem ne_lineFeed_of_digit? {s : Symbol} {n : Nat} (h : digit? s = some n) : s ≠ some '\n' := by
  rintro rfl
  cases h

theorem count_takeDigits (text : List Symbol) :
    (takeDigits text).2.count (some '\n') = text.count (some '\n') := by
  induction text with
  | nil => rfl
  | cons s rest ih =>
    rw [takeDigits]
    split
    · rename_i d hdigit
      rw [List.count_cons_of_ne (ne_lineFeed_of_digit? hdigit)]
      exact ih
    · rfl

theorem Cursor.Inside.readDigits (h : c.Inside last) : (readDigits c).2.Inside last :=
  h.of_count rfl (count_takeDigits c.rest)

theorem stays_finishFloat (h : c.Inside last) (negative : Bool) (value : Nat) (exponent : Int) :
    Stays last Prod.snd (finishFloat negative value exponent c) := by
  unfold finishFloat
  split
  · exact h.fail _
  · exact h

/-- A cursor behind a sign, if there is one. -/
theorem Cursor.Inside.ite_advance (h : c.Inside last) (p : Prop) [Decidable p] :
    (if p then c.advance else c).Inside last := by
  split
  · exact h.advance
  · exact h

theorem stays_readExponent (h : c.Inside last) (negative : Bool) (value : Nat) (exponent : Int) :
    Stays last Prod.snd (readExponent negative value exponent c) := by
  unfold readExponent
  have hsign : (if c.advance.nextChar? = some '+' then (false, c.advance.advance)
      else if c.advance.nextChar? = some '-' then (true, c.advance.advance)
      else (false, c.advance)).2.Inside last := by
    split
    · exact h.advance.advance
    · split
      · exact h.advance.advance
      · exact h.advance
  revert hsign
  dsimp only
  generalize (if c.advance.nextChar? = some '+' then (false, c.advance.advance)
      else if c.advance.nextChar? = some '-' then (true, c.advance.advance)
      else (false, c.advance)) = signed
  obtain ⟨down, c'⟩ := signed
  intro h
  dsimp only at h ⊢
  split
  · exact h.fail _
  · split
    · exact h.failNext _
    · split
      · split
        · exact (h.of_column _).fail _
        · exact h.readDigits
      · exact stays_finishFloat h.readDigits _ _ _

theorem stays_readScale (h : c.Inside last) (negative : Bool) (value : Nat) (exponent : Int) :
    Stays last Prod.snd (readScale negative value exponent c) := by
  unfold readScale
  split
  · exact stays_readExponent h _ _ _
  · exact stays_finishFloat h _ _ _

theorem stays_readFraction (h : c.Inside last) (negative : Bool) (value : Nat) (exponent : Int) :
    Stays last Prod.snd (readFraction negative value exponent c) := by
  have hdigits := h.advance.readDigits
  unfold readFraction
  dsimp only
  split
  · split
    · exact hdigits.fail _
    · exact hdigits.failNext _
  · exact stays_readScale hdigits _ _ _

theorem staysInside_readNumber (negative : Bool) : StaysInside last (readNumber negative) := by
  intro c h
  unfold readNumber
  split
  · exact h.fail _
  · split
    · exact h.failNext _
    · rename_i first hfirst
      have hdigits : (if first = 0 then ([0], c.advance) else readDigits c).2.Inside last := by
        split
        · exact h.advance
        · exact h.readDigits
      generalize (if first = 0 then ([0], c.advance) else readDigits c) = taken at hdigits ⊢
      obtain ⟨digits, stop⟩ := taken
      dsimp only at hdigits ⊢
      split
      · exact hdigits.failNext _
      · split
        · exact stays_readFraction hdigits _ _ _
        · split
          · exact stays_readExponent hdigits _ _ _
          · split
            · exact hdigits
            · exact stays_finishFloat hdigits _ _ _

theorem stays_skipExponent (h : c.Inside last) : Stays last id (skipExponent c) := by
  have hsign := h.advance.ite_advance
    (c.advance.nextChar? = some '+' || c.advance.nextChar? = some '-')
  unfold skipExponent
  dsimp only
  generalize (if c.advance.nextChar? = some '+' || c.advance.nextChar? = some '-' then
    c.advance.advance else c.advance) = signed at hsign ⊢
  split
  · exact hsign.failNext _
  · exact hsign.readDigits

theorem stays_skipScale (h : c.Inside last) : Stays last id (skipScale c) := by
  unfold skipScale
  split
  · exact stays_skipExponent h
  · exact h

theorem stays_skipNumber (h : c.Inside last) : Stays last id (skipNumber c) := by
  unfold skipNumber
  split
  · exact h.failNext _
  · rename_i first hfirst
    have hdigits : (if first = 0 then c.advance else (readDigits c).2).Inside last := by
      split
      · exact h.advance
      · exact h.readDigits
    dsimp only
    generalize (if first = 0 then c.advance else (readDigits c).2) = stop at hdigits ⊢
    split
    · exact hdigits.failNext _
    · split
      · split
        · exact hdigits.advance.readDigits.failNext _
        · exact stays_skipScale hdigits.advance.readDigits
      · exact stays_skipScale hdigits

/-! ### Passing over values -/

theorem stays_skipStart (h : c.Inside last) : Stays last Prod.snd (skipStart c) := by
  have hword := fun word => stays_readWord h.advance word
  unfold skipStart
  split
  · exact h.failNext _
  · split_ifs
    · exact (hword _).map fun _ => rfl
    · exact (hword _).map fun _ => rfl
    · exact (hword _).map fun _ => rfl
    · exact (stays_skipNumber h.advance).map fun _ => rfl
    · exact (stays_skipNumber h).map fun _ => rfl
    · exact (stays_skipString h.advance).map fun _ => rfl
    · exact h.advance
    · exact h.advance
    · exact h.failNext _

theorem stays_skipName (h : c.Inside last) : Stays last id (skipName c) := by
  have hspace := h.skipSpace
  unfold skipName
  dsimp only
  split
  · exact hspace.failNext _
  · split
    · refine (stays_skipString hspace.advance).bind fun c h => ?_
      have hspace := Inside.skipSpace h
      split
      · exact hspace.failNext _
      · split
        · exact hspace.advance
        · exact hspace.failNext _
    · exact hspace.failNext _

theorem stays_skipClosings (h : c.Inside last) (first : Bool) (opened : List Container) :
    Stays last Prod.snd (skipClosings first opened c) := by
  induction opened generalizing c first with
  | nil => exact h
  | cons inner outer ih =>
    have hspace := h.skipSpace
    rw [skipClosings]
    split
    · exact hspace.failNext _
    · split
      · exact ih hspace.advance false
      · split
        · exact hspace
        · split
          · exact hspace.advance
          · exact hspace.failNext _

theorem stays_skipFrom (h : c.Inside last) (n : Nat) (opened : List Container) :
    Stays last id (skipFrom n opened c) := by
  induction n generalizing c opened with
  | zero => exact h.failNext _
  | succ n ih =>
    rw [skipFrom]
    refine (stays_skipStart h.skipSpace).bind fun ⟨new, c⟩ h => ?_
    refine (stays_skipClosings h _ _).bind fun ⟨opened, c⟩ h => ?_
    cases opened with
    | nil => exact h
    | cons kind outer =>
      cases kind with
      | array => exact ih h _
      | object => exact (stays_skipName h).bind fun c h => ih h _

theorem stays_skipValue (h : c.Inside last) : Stays last id (skipValue c) :=
  stays_skipFrom h _ _

/-! ### Items and members -/

theorem stays_nextItem (h : c.Inside last) (first : Bool) :
    Stays last Prod.snd (nextItem first c) := by
  have hspace := h.skipSpace
  have hcomma := hspace.advance.skipSpace
  unfold nextItem
  dsimp only
  split
  · exact hspace.failNext _
  · split
    · exact hspace
    · split
      · exact hspace
      · split
        · split
          · exact hcomma.failNext _
          · split
            · exact hcomma.failNext _
            · exact hcomma
        · exact hspace.failNext _

theorem stays_nextMember (h : c.Inside last) (first : Bool) :
    Stays last Prod.snd (nextMember first c) := by
  have hspace := h.skipSpace
  have hcomma := hspace.advance.skipSpace
  unfold nextMember
  dsimp only
  split
  · exact hspace.failNext _
  · split
    · exact hspace
    · split
      · split
        · exact (staysInside_readString hspace.advance).map fun _ => rfl
        · exact hspace.failNext _
      · split
        · split
          · exact hcomma.failNext _
          · split
            · exact (staysInside_readString hcomma.advance).map fun _ => rfl
            · split
              · exact hcomma.failNext _
              · exact hcomma.failNext _
        · exact hspace.failNext _

theorem stays_passColon (h : c.Inside last) : Stays last id (passColon c) := by
  have hspace := h.skipSpace
  unfold passColon
  dsimp only
  split
  · exact hspace.failNext _
  · split
    · exact hspace.advance
    · exact hspace.failNext _

theorem stays_endArray (h : c.Inside last) : Stays last id (endArray c) := by
  have hspace := h.skipSpace
  have hcomma := hspace.advance.skipSpace
  unfold endArray
  dsimp only
  split
  · exact hspace.failNext _
  · split
    · exact hspace.advance
    · split
      · split
        · exact hcomma.failNext _
        · exact hcomma.failNext _
      · exact hspace.failNext _

theorem stays_endObject (h : c.Inside last) : Stays last id (endObject c) := by
  have hspace := h.skipSpace
  unfold endObject
  dsimp only
  split
  · exact hspace.failNext _
  · split
    · exact hspace.advance
    · split
      · exact hspace.failNext _
      · exact hspace.failNext _

theorem Cursor.Inside.pastArray (h : c.Inside last) : (pastArray c).Inside last := by
  unfold Json.pastArray
  dsimp only
  split
  · exact h.skipSpace.advance
  · split
    · exact h.skipSpace.advance.skipSpace
    · exact h.skipSpace

theorem Cursor.Inside.pastObject (h : c.Inside last) : (pastObject c).Inside last :=
  h.skipSpace.ite_advance _

theorem staysInside_readItems {item : Cursor → Outcome α} (hitem : StaysInside last item) (n : Nat)
    (first : Bool) : StaysInside last (readItems item n first) := by
  intro c h
  induction n generalizing c first with
  | zero => exact h.failNext _
  | succ n ih =>
    rw [readItems]
    refine (stays_nextItem h first).bind fun ⟨more, c⟩ h => ?_
    dsimp only at h ⊢
    split
    · refine (hitem h).bind fun ⟨x, c⟩ h => ?_
      exact (ih false h).bind fun ⟨xs, c⟩ h => h
    · exact (stays_endArray h).bind fun c h => h

theorem stays_readMembers {member : String → σ → Cursor → Outcome σ}
    (hmember : ∀ name state, StaysInside last (member name state)) (h : c.Inside last) (n : Nat)
    (first : Bool) (state : σ) : Stays last Prod.snd (readMembers member n first state c) := by
  induction n generalizing c first state with
  | zero => exact h.failNext _
  | succ n ih =>
    rw [readMembers]
    refine (stays_nextMember h first).bind fun ⟨name, c⟩ h => ?_
    cases name with
    | none => exact h
    | some name => exact (hmember name state h).bind fun ⟨state, c⟩ h => ih h false state

theorem staysInside_readEntry {value : Cursor → Outcome α} (hvalue : StaysInside last value)
    (name : String) (table : NameMap α) : StaysInside last (readEntry value name table) := by
  intro c h
  refine (stays_passColon h).bind fun c h => ?_
  exact (hvalue h).bind fun ⟨x, c⟩ h => h

/-- An error behind a whole text has its last line. -/
theorem stays_endText (h : c.Inside last) (value : α) :
    ∀ e, endText value c = .error e → e.Inside last := by
  intro e herror
  unfold endText at herror
  dsimp only at herror
  split at herror
  · cases herror
  · cases herror
    exact h.skipSpace.errorNext _

end Rollout.Json
