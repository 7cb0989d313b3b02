import Mathlib.Data.List.TakeWhile
import Mathlib.Tactic.IntervalCases
import Rollout.Toml.Quoted

/-!
# Strings in their notations

A string is read back from every notation that it fits, and the notation in which it is written is
one of these.  A string between tripled quotes is over at the first three quotes in a row, so that
the runs of quotes have to stay shorter: single quotes are counted before the notation is chosen,
and of the double quotes every third one gets an escape.
-/

namespace Rollout.Toml

variable {c mark : Char} {text rest form xs after : List Char} {n : Nat}

/-- No quote follows, so that a string that was closed cannot go on. -/
def Closed (rest : List Char) : Prop := rest.head? ≠ some '"' ∧ rest.head? ≠ some '\''

/-! ### Characters -/

theorem isTextChar_of_isControl (h : isControl c = false) (hline : c ≠ '\n') :
    isTextChar c = true := by
  simp only [isControl, Bool.or_eq_false_iff, Bool.and_eq_false_iff, decide_eq_false_iff_not,
    not_not] at h
  obtain ⟨(hlow | htab) | hfeed, hdelete⟩ := h
  · simp only [isTextChar, Bool.or_eq_true, Bool.and_eq_true, decide_eq_true_eq]
    exact .inr ⟨Nat.not_lt.1 hlow, hdelete⟩
  · rw [htab]
    rfl
  · exact absurd hfeed hline

theorem toNat_lt_of_isControl (h : isControl c = true) : c.toNat < 128 := by
  simp only [isControl, Bool.or_eq_true, Bool.and_eq_true, decide_eq_true_eq] at h
  omega

theorem ne_of_isTextChar (h : isTextChar c = true) : c ≠ '\n' ∧ c ≠ '\r' := by
  constructor <;> rintro rfl <;> exact absurd h (by decide)

theorem ne_of_isBasicChar (h : isBasicChar c = true) :
    c ≠ '"' ∧ c ≠ '\\' ∧ c ≠ '\n' ∧ c ≠ '\r' := by
  simp only [isBasicChar, Bool.and_eq_true, decide_eq_true_eq] at h
  exact ⟨h.1.2, h.2, ne_of_isTextChar h.1.1⟩

theorem passNewline?_cons (hfeed : c ≠ '\n') (hreturn : c ≠ '\r') :
    passNewline? (c :: rest) = none := by
  simp [passNewline?, hfeed, hreturn]

/-! ### Escapes -/

/-- What stands for a character after a backslash. -/
structure Escapes (form : List Char) (c : Char) : Prop where
  read : ∀ rest, readEscape (form ++ rest) = .ok (c, rest)
  /-- It is not taken for the end of a line. -/
  stays : ∀ rest, passContinuation? (form ++ rest) = none

theorem passContinuation?_cons (hblank : isBlankChar c = false) (hfeed : c ≠ '\n')
    (hreturn : c ≠ '\r') : passContinuation? (c :: rest) = none := by
  rw [passContinuation?, passBlanks, List.dropWhile_cons_of_neg (by simp [hblank]),
    passNewline?_cons hfeed hreturn]
  rfl

theorem escapes_letter {x : Char} (h : letterEscape? x = some c) : Escapes [x] c where
  read rest := by
    have hshort : x ≠ 'u' := by rintro rfl; cases h
    have hlong : x ≠ 'U' := by rintro rfl; cases h
    simp [readEscape, hshort, hlong, h]
  stays rest := by
    have hspace : x ≠ ' ' := by rintro rfl; cases h
    have htab : x ≠ '\t' := by rintro rfl; cases h
    exact passContinuation?_cons (by simp [isBlankChar, hspace, htab]) (by rintro rfl; cases h)
      (by rintro rfl; cases h)

theorem hexValue?_capitalDigit : ∀ n < 16, hexValue? (capitalDigit n) = some n := by decide

theorem escapes_code (h : c.toNat < 128) :
    Escapes ['u', '0', '0', capitalDigit (c.toNat / 16), capitalDigit (c.toNat % 16)] c where
  read rest := by
    have hhigh := hexValue?_capitalDigit (c.toNat / 16) (by omega)
    have hlow := hexValue?_capitalDigit (c.toNat % 16) (by omega)
    have hzero : hexValue? '0' = some 0 := by decide
    have hcode : c.toNat / 16 * 16 + c.toNat % 16 = c.toNat := by omega
    have hvalid : c.toNat.isValidChar := .inl (by omega)
    simp [readEscape, readCode, hhigh, hlow, hzero, hcode, hvalid, Char.ofNat_toNat]
  stays rest := passContinuation?_cons rfl (by decide) (by decide)

/-- A character between double quotes stands for itself or has an escape. -/
theorem escapeChar_cases (hquote : c ≠ '"') (hline : c ≠ '\n') :
    escapeChar c = [c] ∧ isBasicChar c = true ∨
      ∃ form, escapeChar c = '\\' :: form ∧ Escapes form c := by
  unfold escapeChar
  split_ifs with hslash hback htab hpage hreturn hcontrol
  · subst hslash
    exact .inr ⟨_, rfl, escapes_letter rfl⟩
  · subst hback
    exact .inr ⟨_, rfl, escapes_letter rfl⟩
  · subst htab
    exact .inr ⟨_, rfl, escapes_letter rfl⟩
  · subst hpage
    exact .inr ⟨_, rfl, escapes_letter rfl⟩
  · subst hreturn
    exact .inr ⟨_, rfl, escapes_letter rfl⟩
  · exact .inr ⟨_, rfl, escapes_code (toNat_lt_of_isControl hcontrol)⟩
  · have htext := isTextChar_of_isControl (Bool.eq_false_iff.2 hcontrol) hline
    exact .inl ⟨rfl, by simp [isBasicChar, htext, hquote, hslash]⟩

/-! ### Double quotes -/

theorem readBasicFrom_plain (h : isBasicChar c = true)
    (hrest : readBasicFrom n rest = .ok (xs, after)) :
    readBasicFrom (n + 1) (c :: rest) = .ok (c :: xs, after) := by
  obtain ⟨hquote, hslash, -⟩ := ne_of_isBasicChar h
  rw [readBasicFrom, if_neg hquote, if_neg hslash, if_pos h, hrest]
  rfl

theorem readBasicFrom_escape (h : Escapes form c)
    (hrest : readBasicFrom n rest = .ok (xs, after)) :
    readBasicFrom (n + 1) ('\\' :: (form ++ rest)) = .ok (c :: xs, after) := by
  rw [readBasicFrom, if_neg (by decide), if_pos rfl, h.read rest]
  simp only [bind, Except.bind, hrest]
  rfl

theorem readBasicFrom_writeBasic (h : text.length < n) :
    readBasicFrom n (writeBasic text ++ '"' :: rest) = .ok (text, rest) := by
  induction text generalizing n with
  | nil =>
    obtain ⟨n, rfl⟩ := Nat.exists_eq_add_one_of_ne_zero (Nat.ne_of_gt h)
    rfl
  | cons c text ih =>
    obtain ⟨n, rfl⟩ := Nat.exists_eq_add_one_of_ne_zero (Nat.ne_zero_of_lt h)
    have hread := ih (Nat.lt_of_succ_lt_succ h)
    rw [writeBasic]
    split_ifs with hquote hline
    · have hquoted := readBasicFrom_escape (escapes_letter (x := '"') rfl) hread
      rw [hquote]
      exact hquoted
    · have hfeed := readBasicFrom_escape (escapes_letter (x := 'n') rfl) hread
      rw [hline]
      exact hfeed
    · rw [List.append_assoc]
      obtain ⟨heq, hplain⟩ | ⟨form, heq, hform⟩ := escapeChar_cases hquote hline
      · rw [heq]
        exact readBasicFrom_plain hplain hread
      · rw [heq]
        exact readBasicFrom_escape hform hread

theorem length_le_writeBasic (text : List Char) : text.length ≤ (writeBasic text).length := by
  induction text with
  | nil => exact Nat.le_refl 0
  | cons c text ih =>
    rw [writeBasic]
    split_ifs with hquote hline
    · simp only [List.length_cons]
      omega
    · simp only [List.length_cons]
      omega
    · obtain ⟨heq, -⟩ | ⟨form, heq, -⟩ := escapeChar_cases hquote hline
      all_goals
        simp only [heq, List.length_append, List.length_cons]
        omega

/-! ### Runs of quotes -/

/-- The number of marks at the start of a text. -/
def leadingRun (mark : Char) (text : List Char) : Nat := (text.takeWhile (· = mark)).length

theorem leadingRun_cons_self (mark : Char) (text : List Char) :
    leadingRun mark (mark :: text) = leadingRun mark text + 1 := by
  simp [leadingRun]

theorem leadingRun_cons_of_ne (h : c ≠ mark) : leadingRun mark (c :: text) = 0 := by
  simp [leadingRun, h]

/-- The longest run up to here and the run that ends here, after one more character. -/
def countRun (mark : Char) (runs : Nat × Nat) (c : Char) : Nat × Nat :=
  (max runs.1 (if c = mark then runs.2 + 1 else 0), if c = mark then runs.2 + 1 else 0)

theorem longestRun_eq_foldl (mark : Char) (text : List Char) :
    longestRun mark text = (text.foldl (countRun mark) (0, 0)).1 := rfl

theorem countRun_le (mark : Char) (runs : Nat × Nat) (c : Char) :
    (countRun mark runs c).2 ≤ (countRun mark runs c).1 := Nat.le_max_right _ _

theorem foldl_countRun_le {runs : Nat × Nat} (h : runs.2 ≤ runs.1) :
    (text.foldl (countRun mark) runs).2 ≤ (text.foldl (countRun mark) runs).1 := by
  induction text generalizing runs with
  | nil => exact h
  | cons c text ih => exact ih (countRun_le mark runs c)

theorem le_foldl_countRun (runs : Nat × Nat) :
    runs.1 ≤ (text.foldl (countRun mark) runs).1 := by
  induction text generalizing runs with
  | nil => exact Nat.le_refl _
  | cons c text ih => exact (Nat.le_max_left _ _).trans (ih (countRun mark runs c))

/-- A run that goes on is counted to its end. -/
theorem leadingRun_add_le {runs : Nat × Nat} (h : runs.2 ≤ runs.1) :
    leadingRun mark text + runs.2 ≤ (text.foldl (countRun mark) runs).1 := by
  induction text generalizing runs with
  | nil => exact (Nat.zero_add _).le.trans h
  | cons c text ih =>
    by_cases hmark : c = mark
    · subst hmark
      have hnext := ih (countRun_le c runs c)
      have hrun : (countRun c runs c).2 = runs.2 + 1 := if_pos rfl
      rw [leadingRun_cons_self, List.foldl_cons]
      omega
    · rw [leadingRun_cons_of_ne hmark, Nat.zero_add]
      exact h.trans (le_foldl_countRun runs)

theorem leadingRun_le_longestRun (mark : Char) {part : List Char} (h : part <:+ text) :
    leadingRun mark part ≤ longestRun mark text := by
  obtain ⟨before, rfl⟩ := h
  rw [longestRun_eq_foldl, List.foldl_append]
  exact (Nat.le_add_right _ _).trans (leadingRun_add_le (foldl_countRun_le (Nat.le_refl 0)))

theorem not_mem_of_longestRun (h : longestRun mark text = 0) : mark ∉ text := by
  intro hmem
  obtain ⟨before, behind, rfl⟩ := List.append_of_mem hmem
  have hrun := leadingRun_le_longestRun mark (List.suffix_append before (mark :: behind))
  rw [h, leadingRun_cons_self] at hrun
  omega

theorem atTripled_self (mark : Char) (rest : List Char) :
    atTripled mark (mark :: mark :: mark :: rest) = true := by
  simp [atTripled]

/-- Tripled marks at a place where at most two marks follow in the text are the end of the text,
with the marks of the text before them. -/
theorem eq_replicate_of_atTripled (hrun : leadingRun mark text ≤ 2)
    (h : atTripled mark (text ++ mark :: mark :: mark :: rest) = true) :
    ∃ k ≤ 2, text = List.replicate k mark := by
  simp only [atTripled, decide_eq_true_eq] at h
  match text with
  | [] => exact ⟨0, by omega, rfl⟩
  | [a] =>
    injection h with ha
    exact ⟨1, by omega, by rw [ha]; rfl⟩
  | [a, b] =>
    injection h with ha h
    injection h with hb
    exact ⟨2, by omega, by rw [ha, hb]; rfl⟩
  | a :: b :: c :: text =>
    injection h with ha h
    injection h with hb h
    injection h with hc
    rw [ha, hb, hc, leadingRun_cons_self, leadingRun_cons_self, leadingRun_cons_self] at hrun
    omega

theorem endTripled_replicate {k : Nat} (hk : k ≤ 2) (hrest : rest.head? ≠ some mark) :
    endTripled mark (List.replicate k mark ++ mark :: mark :: mark :: rest) =
      (List.replicate k mark, rest) := by
  have hover : rest.takeWhile (· = mark) = [] := by
    cases rest with
    | nil => rfl
    | cons c rest =>
      refine List.takeWhile_cons_of_neg ?_
      simpa using hrest
  interval_cases k <;> simp [endTripled, hover, List.replicate]

/-! ### Tripled single quotes -/

theorem readMultiLiteralFrom_tripled (h : atTripled '\'' text = true) :
    readMultiLiteralFrom (n + 1) text = .ok (endTripled '\'' text) := by
  cases text with
  | nil => exact absurd h (by decide)
  | cons c text => rw [readMultiLiteralFrom, if_pos h]

theorem readMultiLiteralFrom_plain (htripled : ¬atTripled '\'' (c :: rest) = true)
    (h : isControl c = false) (hrest : readMultiLiteralFrom n rest = .ok (xs, after)) :
    readMultiLiteralFrom (n + 1) (c :: rest) = .ok (c :: xs, after) := by
  rw [readMultiLiteralFrom, if_neg htripled]
  by_cases hline : c = '\n'
  · subst hline
    rw [if_neg (by decide)]
    simp only [passNewline?, if_pos, hrest]
    rfl
  · rw [if_pos (isTextChar_of_isControl h hline), hrest]
    rfl

theorem readMultiLiteralFrom_append (hplain : ∀ c ∈ text, isControl c = false)
    (hruns : ∀ part, part <:+ text → leadingRun '\'' part ≤ 2) (hrest : rest.head? ≠ some '\'')
    (h : text.length < n) :
    readMultiLiteralFrom n (text ++ '\'' :: '\'' :: '\'' :: rest) = .ok (text, rest) := by
  induction text generalizing n with
  | nil =>
    obtain ⟨n, rfl⟩ := Nat.exists_eq_add_one_of_ne_zero (Nat.ne_of_gt h)
    rw [List.nil_append, readMultiLiteralFrom_tripled (atTripled_self _ _)]
    exact congrArg _ (endTripled_replicate (Nat.zero_le 2) hrest)
  | cons c text ih =>
    obtain ⟨n, rfl⟩ := Nat.exists_eq_add_one_of_ne_zero (Nat.ne_zero_of_lt h)
    by_cases htripled : atTripled '\'' (c :: text ++ '\'' :: '\'' :: '\'' :: rest) = true
    · rw [readMultiLiteralFrom_tripled htripled]
      obtain ⟨k, hk, heq⟩ := eq_replicate_of_atTripled (hruns _ List.suffix_rfl) htripled
      rw [heq, endTripled_replicate hk hrest]
    · refine readMultiLiteralFrom_plain htripled (hplain c List.mem_cons_self) ?_
      exact ih (fun x hx => hplain x (List.mem_cons_of_mem _ hx))
        (fun part hpart => hruns part (hpart.trans (List.suffix_cons _ _)))
        (Nat.lt_of_succ_lt_succ h)

/-! ### Tripled double quotes -/

theorem leadingRun_escapeChar (hquote : c ≠ '"') (hline : c ≠ '\n') :
    leadingRun '"' (escapeChar c ++ rest) = 0 := by
  obtain ⟨heq, -⟩ | ⟨form, heq, -⟩ := escapeChar_cases hquote hline
  · rw [heq]
    exact leadingRun_cons_of_ne hquote
  · rw [heq]
    exact leadingRun_cons_of_ne (by decide)

/-- With the run before it, what is written starts with at most two double quotes. -/
theorem leadingRun_writeMulti (text : List Char) {run : Nat} (h : run ≤ 2) :
    leadingRun '"' (writeMulti run text) + run ≤ 2 := by
  induction text generalizing run with
  | nil => exact (Nat.zero_add run).le.trans h
  | cons c text ih =>
    rw [writeMulti]
    split_ifs with hquote hrun hline
    · have hnext : leadingRun '"' (writeMulti (run + 1) text) + (run + 1) ≤ 2 := ih hrun
      rw [leadingRun_cons_self]
      omega
    · rw [leadingRun_cons_of_ne (by decide)]
      omega
    · rw [leadingRun_cons_of_ne (by decide)]
      omega
    · rw [leadingRun_escapeChar hquote hline]
      omega

/-- Where only double quotes are written, they are the text itself. -/
theorem writeMulti_of_forall_eq {run : Nat} (h : ∀ x ∈ writeMulti run text, x = '"') :
    writeMulti run text = text := by
  induction text generalizing run with
  | nil => rfl
  | cons c text ih =>
    rw [writeMulti] at h ⊢
    split_ifs at h ⊢ with hquote hrun hline
    · rw [hquote, ih fun x hx => h x (List.mem_cons_of_mem _ hx)]
    · exact absurd (h '\\' List.mem_cons_self) (by decide)
    · exact absurd (h '\n' List.mem_cons_self) (by decide)
    · obtain ⟨heq, -⟩ | ⟨form, heq, -⟩ := escapeChar_cases hquote hline
      · rw [heq] at h
        exact absurd (h c List.mem_cons_self) hquote
      · rw [heq] at h
        exact absurd (h '\\' List.mem_cons_self) (by decide)

theorem readMultiFrom_tripled (h : atTripled '"' text = true) :
    readMultiFrom (n + 1) text = .ok (endTripled '"' text) := by
  cases text with
  | nil => exact absurd h (by decide)
  | cons c text => rw [readMultiFrom, if_pos h]

theorem readMultiFrom_plain (htripled : ¬atTripled '"' (c :: rest) = true)
    (h : c = '"' ∨ isBasicChar c = true) (hrest : readMultiFrom n rest = .ok (xs, after)) :
    readMultiFrom (n + 1) (c :: rest) = .ok (c :: xs, after) := by
  have hslash : c ≠ '\\' := by rintro rfl; exact absurd h (by decide)
  rw [readMultiFrom, if_neg htripled, if_neg hslash, if_pos (by simpa using h), hrest]
  rfl

theorem readMultiFrom_newline (hrest : readMultiFrom n rest = .ok (xs, after)) :
    readMultiFrom (n + 1) ('\n' :: rest) = .ok ('\n' :: xs, after) := by
  have htripled : ¬atTripled '"' ('\n' :: rest) = true := by simp [atTripled]
  rw [readMultiFrom, if_neg htripled, if_neg (by decide), if_neg (by decide)]
  simp only [passNewline?, if_pos, hrest]
  rfl

theorem readMultiFrom_escape (h : Escapes form c) (hrest : readMultiFrom n rest = .ok (xs, after)) :
    readMultiFrom (n + 1) ('\\' :: (form ++ rest)) = .ok (c :: xs, after) := by
  have htripled : ¬atTripled '"' ('\\' :: (form ++ rest)) = true := by simp [atTripled]
  rw [readMultiFrom, if_neg htripled, if_pos rfl]
  simp only [h.stays rest, h.read rest, bind, Except.bind, hrest]
  rfl

theorem readMultiFrom_writeMulti {run : Nat} (hrun : run ≤ 2) (hrest : rest.head? ≠ some '"')
    (h : text.length < n) :
    readMultiFrom n (writeMulti run text ++ '"' :: '"' :: '"' :: rest) = .ok (text, rest) := by
  induction text generalizing n run with
  | nil =>
    obtain ⟨n, rfl⟩ := Nat.exists_eq_add_one_of_ne_zero (Nat.ne_of_gt h)
    rw [writeMulti, List.nil_append, readMultiFrom_tripled (atTripled_self _ _)]
    exact congrArg _ (endTripled_replicate (Nat.zero_le 2) hrest)
  | cons c text ih =>
    obtain ⟨n, rfl⟩ := Nat.exists_eq_add_one_of_ne_zero (Nat.ne_zero_of_lt h)
    have hleft := Nat.lt_of_succ_lt_succ h
    by_cases htripled :
        atTripled '"' (writeMulti run (c :: text) ++ '"' :: '"' :: '"' :: rest) = true
    · rw [readMultiFrom_tripled htripled]
      have hshort := (Nat.le_add_right _ _).trans (leadingRun_writeMulti (c :: text) hrun)
      obtain ⟨k, hk, heq⟩ := eq_replicate_of_atTripled hshort htripled
      have hquotes : writeMulti run (c :: text) = c :: text :=
        writeMulti_of_forall_eq fun x hx => List.eq_of_mem_replicate (heq ▸ hx)
      rw [heq, endTripled_replicate hk hrest, ← heq, hquotes]
    · rw [writeMulti] at htripled ⊢
      split_ifs at htripled ⊢ with hquote hroom hline
      · rw [hquote]
        exact readMultiFrom_plain htripled (.inl rfl) (ih (Nat.succ_le_of_lt hroom) hleft)
      · have hquoted := readMultiFrom_escape (escapes_letter (x := '"') rfl)
          (ih (Nat.zero_le 2) hleft)
        rw [hquote]
        exact hquoted
      · rw [hline]
        exact readMultiFrom_newline (ih (Nat.zero_le 2) hleft)
      · rw [List.append_assoc] at htripled ⊢
        obtain ⟨heq, hplain⟩ | ⟨form, heq, hform⟩ := escapeChar_cases hquote hline
        · rw [heq] at htripled ⊢
          exact readMultiFrom_plain htripled (.inr hplain) (ih (Nat.zero_le 2) hleft)
        · rw [heq]
          exact readMultiFrom_escape hform (ih (Nat.zero_le 2) hleft)

theorem length_le_writeMulti (text : List Char) (run : Nat) :
    text.length ≤ (writeMulti run text).length := by
  induction text generalizing run with
  | nil => exact Nat.le_refl 0
  | cons c text ih =>
    have hnext := ih (run + 1)
    have hfresh := ih 0
    rw [writeMulti]
    split_ifs with hquote hrun hline
    · simp only [List.length_cons]
      omega
    · simp only [List.length_cons]
      omega
    · simp only [List.length_cons]
      omega
    · obtain ⟨heq, -⟩ | ⟨form, heq, -⟩ := escapeChar_cases hquote hline
      all_goals
        simp only [heq, List.length_append, List.length_cons]
        omega

/-- The line end that stands before a string with line ends is passed, and no other. -/
theorem passLeadingNewline_append (h : '\n' ∉ text → passNewline? rest = none) :
    passLeadingNewline (leadingNewline text ++ rest) = rest := by
  unfold leadingNewline
  split_ifs with hline
  · rfl
  · have hnone := h (by simpa using hline)
    rw [List.nil_append, passLeadingNewline, hnone]
    rfl

theorem passNewline?_writeMulti (hline : '\n' ∉ text) :
    passNewline? (writeMulti 0 text ++ '"' :: rest) = none := by
  cases text with
  | nil => exact passNewline?_cons (by decide) (by decide)
  | cons c text =>
    have hfeed : '\n' ≠ c := fun heq => hline (heq ▸ List.mem_cons_self)
    rw [writeMulti, if_neg (Ne.symm hfeed)]
    split_ifs with hquote hrun
    · exact passNewline?_cons (by decide) (by decide)
    · exact absurd Nat.zero_lt_two hrun
    · obtain ⟨heq, hplain⟩ | ⟨form, heq, -⟩ := escapeChar_cases hquote (Ne.symm hfeed)
      · obtain ⟨-, -, hfeed, hreturn⟩ := ne_of_isBasicChar hplain
        rw [heq]
        exact passNewline?_cons hfeed hreturn
      · rw [heq]
        exact passNewline?_cons (by decide) (by decide)

/-! ### Notations -/

/-- Whether a string can be written in a notation: without escapes not every string can. -/
def Fits (text : List Char) : Notation → Prop
  | .basic | .multiBasic => True
  | .literal => ∀ c ∈ text, isLiteralChar c = true
  | .multiLiteral => (∀ c ∈ text, isControl c = false) ∧ longestRun '\'' text ≤ 2

theorem fits_chooseNotation (text : List Char) : Fits text (chooseNotation text) := by
  unfold chooseNotation
  dsimp only
  split_ifs with hbasic hliteral hmulti hmultiLiteral hline
  · trivial
  · simp only [Bool.and_eq_true, Bool.not_eq_true', decide_eq_true_eq, List.any_eq_false]
      at hliteral
    obtain ⟨⟨hplain, hrun⟩, hline⟩ := hliteral
    intro c hc
    have hfeed : c ≠ '\n' := by rintro rfl; simp [hc] at hline
    have hmark : c ≠ '\'' := by rintro rfl; exact not_mem_of_longestRun hrun hc
    have htext := isTextChar_of_isControl (Bool.eq_false_iff.2 (hplain c hc)) hfeed
    simp [isLiteralChar, htext, hmark]
  · trivial
  · simp only [Bool.and_eq_true, Bool.not_eq_true', decide_eq_true_eq, List.any_eq_false]
      at hmultiLiteral
    exact ⟨fun c hc => Bool.eq_false_iff.2 (hmultiLiteral.1 c hc), hmultiLiteral.2⟩
  · trivial
  · trivial

theorem leadingRun_writeBasic (text : List Char) : leadingRun '"' (writeBasic text) = 0 := by
  cases text with
  | nil => rfl
  | cons c text =>
    rw [writeBasic]
    split_ifs with hquote hline
    · exact leadingRun_cons_of_ne (by decide)
    · exact leadingRun_cons_of_ne (by decide)
    · exact leadingRun_escapeChar hquote hline

/-- A mark at the start and one at the end of a string are not tripled, not even if the string is
empty. -/
theorem not_atTripled (htext : leadingRun mark text = 0) (hrest : rest.head? ≠ some mark) :
    ¬atTripled mark (mark :: (text ++ mark :: rest)) = true := by
  cases text with
  | nil =>
    cases rest with
    | nil => simp [atTripled]
    | cons c rest =>
      have hc : c ≠ mark := by simpa using hrest
      simp [atTripled, hc]
  | cons c text =>
    have hc : c ≠ mark := by
      rintro rfl
      rw [leadingRun_cons_self] at htext
      omega
    simp [atTripled, hc]

theorem readString_writeBasic (text : List Char) (hrest : Closed rest) :
    readString ('"' :: (writeBasic text ++ '"' :: rest)) = .ok (text, rest) := by
  have hlength := length_le_writeBasic text
  have hdouble := not_atTripled (leadingRun_writeBasic text) hrest.1
  rw [readString, if_neg hdouble, if_neg (by simp [atTripled]), readShortString,
    if_pos List.head?_cons, List.tail_cons]
  apply readBasicFrom_writeBasic
  simp only [List.length_cons, List.length_append]
  omega

theorem readString_literal (h : ∀ c ∈ text, isLiteralChar c = true) (hrest : Closed rest) :
    readString ('\'' :: (text ++ '\'' :: rest)) = .ok (text, rest) := by
  have hmark : ¬isLiteralChar '\'' = true := by decide
  have hrun : leadingRun '\'' text = 0 := by
    cases text with
    | nil => rfl
    | cons c text =>
      refine leadingRun_cons_of_ne fun heq => hmark ?_
      exact heq ▸ h c List.mem_cons_self
  rw [readString, if_neg (by simp [atTripled]), if_neg (not_atTripled hrun hrest.2),
    readShortString, if_neg (by simp), if_pos List.head?_cons, List.tail_cons, readLiteral,
    List.dropWhile_append_of_pos h, List.takeWhile_append_of_pos h,
    List.dropWhile_cons_of_neg hmark, List.takeWhile_cons_of_neg hmark, List.append_nil]
  rfl

theorem readString_writeMulti (text : List Char) (hrest : Closed rest) :
    readString ('"' :: '"' :: '"' ::
      (leadingNewline text ++ (writeMulti 0 text ++ '"' :: '"' :: '"' :: rest))) =
      .ok (text, rest) := by
  have hlength := length_le_writeMulti text 0
  rw [readString, if_pos (atTripled_self _ _)]
  simp only [List.drop_succ_cons, List.drop_zero]
  rw [passLeadingNewline_append passNewline?_writeMulti]
  apply readMultiFrom_writeMulti (Nat.zero_le 2) hrest.1
  simp only [List.length_cons, List.length_append]
  omega

theorem readString_multiLiteral (hplain : ∀ c ∈ text, isControl c = false)
    (hrun : longestRun '\'' text ≤ 2) (hrest : Closed rest) :
    readString ('\'' :: '\'' :: '\'' ::
      (leadingNewline text ++ (text ++ '\'' :: '\'' :: '\'' :: rest))) = .ok (text, rest) := by
  have hnewline (hline : '\n' ∉ text) :
      passNewline? (text ++ '\'' :: '\'' :: '\'' :: rest) = none := by
    cases text with
    | nil => exact passNewline?_cons (by decide) (by decide)
    | cons c text =>
      have hfeed : c ≠ '\n' := fun heq => hline (heq ▸ List.mem_cons_self)
      have htext := isTextChar_of_isControl (hplain c List.mem_cons_self) hfeed
      exact passNewline?_cons hfeed (ne_of_isTextChar htext).2
  rw [readString, if_neg (by simp [atTripled]), if_pos (atTripled_self _ _)]
  simp only [List.drop_succ_cons, List.drop_zero]
  rw [passLeadingNewline_append hnewline]
  apply readMultiLiteralFrom_append hplain
    (fun part hpart => (leadingRun_le_longestRun _ hpart).trans hrun) hrest.2
  simp only [List.length_cons, List.length_append]
  omega

/-- A string is read back from every notation that it fits. -/
theorem readString_writeIn {kind : Notation} (h : Fits text kind) (hrest : Closed rest) :
    readString (writeIn text kind ++ rest) = .ok (text, rest) := by
  cases kind with
  | basic => simpa [writeIn] using readString_writeBasic text hrest
  | literal => simpa [writeIn] using readString_literal h hrest
  | multiBasic => simpa [writeIn] using readString_writeMulti text hrest
  | multiLiteral => simpa [writeIn] using readString_multiLiteral h.1 h.2 hrest

theorem readString_writeString (text : List Char) (hrest : Closed rest) :
    readString (writeString text ++ rest) = .ok (text, rest) :=
  readString_writeIn (fits_chooseNotation text) hrest

end Rollout.Toml
