import Rollout.Document.Basic
import Rollout.Proofs.Shape.Placing

/-!
# Excerpts around errors

A text falls into lines in one way only (`Text.lined_iff`), and an excerpt shows those of three
neighbouring lines that there are.  A text that is no document is reported with such an excerpt, and
the line that is reported is in it unless it is the one that the last line feed begins.
-/

namespace Rollout.Text

/-! ### Lines -/

/-- Whether a text falls into given lines.  A line ends before a line feed, with or without a
carriage return before it; the last line may end with the text, if it is not empty. -/
inductive Lined : List Char → List (List Char) → Prop
  | nil : Lined [] []
  | unended {line : List Char} (hline : line ≠ []) (hfeed : '\n' ∉ line) : Lined line [line]
  | feed (line : List Char) {rest : List Char} {lines : List (List Char)} (hfeed : '\n' ∉ line)
      (hreturn : line.getLast? ≠ some '\r') (hrest : Lined rest lines) :
    Lined (line ++ '\n' :: rest) (line :: lines)
  | returnFeed (line : List Char) {rest : List Char} {lines : List (List Char)}
      (hfeed : '\n' ∉ line) (hrest : Lined rest lines) :
    Lined (line ++ '\r' :: '\n' :: rest) (line :: lines)

theorem not_mem_cons_iff {α : Type} {a b : α} {list : List α} :
    a ∉ b :: list ↔ a ≠ b ∧ a ∉ list := by
  rw [List.mem_cons, not_or]

theorem linesOf_cons {c : Char} {rest : List Char} (hfeed : c ≠ '\n')
    (hreturn : ¬(c = '\r' ∧ rest.head? = some '\n')) :
    linesOf (c :: rest) = match linesOf rest with
      | [] => [[c]]
      | line :: others => (c :: line) :: others := by
  rw [linesOf.eq_def]
  split
  · rename_i heq
    cases heq
  · rename_i heq
    cases heq
    exact absurd ⟨rfl, rfl⟩ hreturn
  · rename_i heq
    cases heq
    exact absurd rfl hfeed
  · rename_i heq
    cases heq
    rfl

/-- The first character of a line and what follows it are no end of a line. -/
theorem head?_append_ne_feed {line : List Char} (after : List Char) (hfeed : '\n' ∉ line)
    (h : line = [] → after.head? ≠ some '\n') : (line ++ after).head? ≠ some '\n' := by
  cases line with
  | nil => exact h rfl
  | cons c line =>
    intro hhead
    cases hhead
    exact hfeed List.mem_cons_self

theorem linesOf_of_not_mem {line : List Char} (hfeed : '\n' ∉ line) (hline : line ≠ []) :
    linesOf line = [line] := by
  induction line with
  | nil => exact absurd rfl hline
  | cons c line ih =>
    obtain ⟨hc, hrest⟩ := not_mem_cons_iff.1 hfeed
    have hhead := head?_append_ne_feed [] hrest nofun
    rw [List.append_nil] at hhead
    rw [linesOf_cons (Ne.symm hc) fun h => hhead h.2]
    cases line with
    | nil => rfl
    | cons c' line => rw [ih hrest nofun]

theorem linesOf_append_feed {line : List Char} (hfeed : '\n' ∉ line)
    (hreturn : line.getLast? ≠ some '\r') (rest : List Char) :
    linesOf (line ++ '\n' :: rest) = line :: linesOf rest := by
  induction line with
  | nil => rw [List.nil_append, linesOf]
  | cons c line ih =>
    obtain ⟨hc, hrest⟩ := not_mem_cons_iff.1 hfeed
    rw [List.cons_append]
    cases line with
    | nil =>
      have hother : c ≠ '\r' := by
        rintro rfl
        exact hreturn rfl
      rw [linesOf_cons (Ne.symm hc) fun h => hother h.1, ih hrest nofun]
    | cons c' line =>
      rw [List.getLast?_cons_cons] at hreturn
      have hhead := head?_append_ne_feed ('\n' :: rest) hrest nofun
      rw [linesOf_cons (Ne.symm hc) fun h => hhead h.2, ih hrest hreturn]

theorem linesOf_append_returnFeed {line : List Char} (hfeed : '\n' ∉ line) (rest : List Char) :
    linesOf (line ++ '\r' :: '\n' :: rest) = line :: linesOf rest := by
  induction line with
  | nil => rw [List.nil_append, linesOf]
  | cons c line ih =>
    obtain ⟨hc, hrest⟩ := not_mem_cons_iff.1 hfeed
    have hhead := head?_append_ne_feed ('\r' :: '\n' :: rest) hrest fun _ => by simp
    rw [List.cons_append, linesOf_cons (Ne.symm hc) fun h => hhead h.2, ih hrest]

theorem linesOf_of_lined {text : List Char} {lines : List (List Char)} (h : Lined text lines) :
    linesOf text = lines := by
  induction h with
  | nil => rw [linesOf]
  | unended hline hfeed => exact linesOf_of_not_mem hfeed hline
  | feed _ hfeed hreturn _ ih => rw [linesOf_append_feed hfeed hreturn, ih]
  | returnFeed _ hfeed _ ih => rw [linesOf_append_returnFeed hfeed, ih]

theorem lined_linesOf (text : List Char) : Lined text (linesOf text) := by
  fun_induction linesOf text with
  | case1 => exact .nil
  | case2 rest ih => exact .returnFeed [] List.not_mem_nil ih
  | case3 rest ih => exact .feed [] List.not_mem_nil nofun ih
  | case4 c rest hreturn hfeed hnone ih =>
    rw [hnone] at ih
    cases ih
    exact .unended nofun (by simpa using Ne.symm hfeed)
  | case5 c rest hreturn hfeed line others hsome ih =>
    -- The first line of the rest becomes longer, and stays one line since no line end begins here.
    rw [hsome] at ih
    cases ih with
    | unended hline hnot => exact .unended nofun (not_mem_cons_iff.2 ⟨Ne.symm hfeed, hnot⟩)
    | @feed _ after _ hnot hlast hrest =>
      refine .feed (c :: line) (not_mem_cons_iff.2 ⟨Ne.symm hfeed, hnot⟩) ?_ hrest
      cases line with
      | nil =>
        intro hc
        exact hreturn after (Option.some.inj hc) rfl
      | cons c' line =>
        rw [List.getLast?_cons_cons]
        exact hlast
    | returnFeed _ hnot hrest =>
      exact .returnFeed (c :: line) (not_mem_cons_iff.2 ⟨Ne.symm hfeed, hnot⟩) hrest

/-- A text falls into lines in one way. -/
theorem lined_iff {text : List Char} {lines : List (List Char)} :
    Lined text lines ↔ lines = linesOf text :=
  ⟨fun h => (linesOf_of_lined h).symm, fun h => h ▸ lined_linesOf text⟩

/-- There is a line for each line feed, and there may be one behind the last. -/
theorem length_of_lined {text : List Char} {lines : List (List Char)} (h : Lined text lines) :
    text.count '\n' ≤ lines.length ∧ lines.length ≤ text.count '\n' + 1 := by
  induction h with
  | nil => simp
  | unended _ hfeed => simp [List.count_eq_zero_of_not_mem hfeed]
  | feed _ hfeed _ _ ih => simp [List.count_eq_zero_of_not_mem hfeed, ih]
  | returnFeed _ hfeed _ ih => simp [List.count_eq_zero_of_not_mem hfeed, ih]

theorem length_lines_le (text : String) :
    text.toList.count '\n' ≤ (lines text).length ∧
      (lines text).length ≤ text.toList.count '\n' + 1 := by
  rw [lines, List.length_map]
  exact length_of_lined (lined_linesOf text.toList)

/-! ### Excerpts -/

/-- Lines with their numbers, counted on from a number of lines before them. -/
def numberedFrom (before : Nat) (lines : List String) : List (Nat × String) :=
  lines.mapIdx fun i line => (before + i + 1, line)

theorem numberedFrom_append (before : Nat) (lines others : List String) :
    numberedFrom before (lines ++ others) =
      numberedFrom before lines ++ numberedFrom (before + lines.length) others := by
  rw [numberedFrom, List.mapIdx_append, numberedFrom, numberedFrom]
  refine congrArg _ (congrArg (List.mapIdx · others) ?_)
  funext i line
  rw [Nat.add_comm i, ← Nat.add_assoc before]

theorem mem_numberedFrom {before number : Nat} {lines : List String} {line : String} :
    (number, line) ∈ numberedFrom before lines ↔
      ∃ i, number = before + i + 1 ∧ lines[i]? = some line := by
  rw [numberedFrom, List.mem_mapIdx]
  constructor
  · rintro ⟨i, hi, heq⟩
    cases heq
    exact ⟨i, rfl, List.getElem?_eq_getElem hi⟩
  · rintro ⟨i, rfl, hline⟩
    obtain ⟨hi, rfl⟩ := List.getElem?_eq_some_iff.1 hline
    exact ⟨i, hi, rfl⟩

theorem le_of_mem_numberedFrom {before : Nat} {lines : List String} {l : Nat × String}
    (h : l ∈ numberedFrom before lines) : before < l.1 ∧ l.1 ≤ before + lines.length := by
  obtain ⟨number, line⟩ := l
  obtain ⟨i, rfl, hline⟩ := mem_numberedFrom.1 h
  have hi := (List.getElem?_eq_some_iff.1 hline).1
  dsimp only
  omega

/-- Lines keep their numbers where a text is cut before and behind a range of lines. -/
theorem numberedFrom_cut (lines : List String) (start count : Nat) :
    numberedFrom 0 lines = numberedFrom 0 (lines.take start) ++
      (numberedFrom (min start lines.length) ((lines.drop start).take count) ++
        numberedFrom (min start lines.length + ((lines.drop start).take count).length)
          ((lines.drop start).drop count)) := by
  have hsplit : lines =
      lines.take start ++ ((lines.drop start).take count ++ (lines.drop start).drop count) := by
    rw [List.take_append_drop, List.take_append_drop]
  rw [← numberedFrom_append, ← List.length_take, ← Nat.zero_add (lines.take start).length,
    ← numberedFrom_append, ← hsplit]

/-- An excerpt shows the line of a number and its neighbours, as far as they are there. -/
theorem around_eq_filter (lines : List String) (number : Nat) :
    around lines number = (numberedFrom 0 lines).filter fun l =>
      l.1 + 1 = number ∨ l.1 = number ∨ l.1 = number + 1 := by
  let start := number - 2
  let count := min (number + 1) lines.length - start
  let shown := (lines.drop start).take count
  let after := (lines.drop start).drop count
  have hstart : start = number - 2 := rfl
  have hcount : count = min (number + 1) lines.length - start := rfl
  have hshown : shown.length = min count (lines.length - start) := by
    rw [List.length_take, List.length_drop]
  have hafter : after.length = lines.length - start - count := by
    rw [List.length_drop, List.length_drop]
  have hbefore : (lines.take start).length = min start lines.length := List.length_take
  have hnumbered : numberedFrom 0 lines = numberedFrom 0 (lines.take start) ++
      (numberedFrom (min start lines.length) shown ++
        numberedFrom (min start lines.length + shown.length) after) :=
    numberedFrom_cut lines start count
  rw [hnumbered, List.filter_append, List.filter_append, List.filter_eq_nil_iff.2,
    List.filter_eq_self.2, List.filter_eq_nil_iff.2, List.nil_append, List.append_nil]
  · -- Where the excerpt would start behind the text, it shows nothing.
    rcases Nat.le_total start lines.length with hle | hle
    · rw [Nat.min_eq_left hle]
      rfl
    · have hnone : shown = [] := by
        rw [← List.length_eq_zero_iff, hshown]
        omega
      have haround : around lines number = numberedFrom start shown := rfl
      rw [haround, hnone]
      rfl
  all_goals
    intro l hl
    have hrange := le_of_mem_numberedFrom hl
    simp only [decide_eq_true_eq]
    omega

/-- Behind the last line, an excerpt shows this line alone. -/
theorem around_behind (lines : List String) :
    around lines (lines.length + 1) =
      (lines.getLast?.map fun line => (lines.length, line)).toList := by
  rcases List.eq_nil_or_concat lines with rfl | ⟨others, line, rfl⟩
  · rfl
  · rw [around_eq_filter, List.concat_eq_append, numberedFrom_append, List.filter_append,
      List.filter_eq_nil_iff.2]
    · simp [numberedFrom]
    · intro l hl
      have hrange := le_of_mem_numberedFrom hl
      simp only [List.length_append, List.length_singleton, decide_eq_true_eq]
      omega

end Rollout.Text

namespace Rollout

open Text (Lined lines numberedFrom padLeft)

/-- Every error of a text has a line, so there is always an excerpt. -/
theorem Document.readingReason_of_parse {text : String} {e : Json.Error}
    (h : (Shaped.parse text : Except Json.Error Request) = .error e) :
    readingReason text e = Text.located "JSON" text e.line e.message :=
  if_neg (Nat.ne_of_gt (Shaped.line_of_parse h).1)

/-- A text that is no document, because it is no JSON or has another shape, is reported with a line
and an excerpt:

* The line is one of those that the line feeds of the text begin and end, and there is one way only
  in which the text falls into lines.
* The excerpt consists of the line with its neighbours, as far as the text has these lines, in
  order, each with its number and content; only the line itself has the mark.
* The line is one of the text, or the one behind them; then the excerpt is the last line without a
  mark, or nothing if the text has no line. -/
theorem Document.error_shows_line {text : String} {e : Json.Error}
    (h : (Shaped.parse text : Except Json.Error Request) = .error e) :
    let shown := (numberedFrom 0 (lines text)).filter fun l =>
      l.1 + 1 = e.line ∨ l.1 = e.line ∨ l.1 = e.line + 1
    (Document.parse text = .error (.unreadable (
      "JSON parsing error at line " ++ toString e.line ++ ":\n" ++
        "\n".intercalate (shown.map fun l =>
          (if l.1 = e.line then ">>>" else "   ") ++ " " ++ padLeft 4 (toString l.1) ++
            " | " ++ l.2) ++
        "\n\nError: " ++ e.message))) ∧
    (1 ≤ e.line ∧ e.line ≤ text.toList.count '\n' + 1) ∧
    (∀ parts, Lined text.toList parts ↔ parts = (lines text).map String.toList) ∧
    (e.line ≤ (lines text).length →
      ∃ line, (lines text)[e.line - 1]? = some line ∧ (e.line, line) ∈ shown) ∧
    ((lines text).length < e.line → e.line = (lines text).length + 1 ∧
      shown = ((lines text).getLast?.map fun line => ((lines text).length, line)).toList ∧
      ∀ l ∈ shown, l.1 ≠ e.line) := by
  intro shown
  have hplace := Shaped.line_of_parse h
  have hlength := Text.length_lines_le text
  have hshown : Text.around (lines text) e.line = shown := Text.around_eq_filter _ _
  refine ⟨?_, hplace, fun parts => ?_, fun hle => ?_, fun hlt => ?_⟩
  · rw [Document.parse, h, ← hshown]
    exact congrArg (Except.error ∘ Failure.unreadable) (Document.readingReason_of_parse h)
  · rw [Text.lined_iff, Text.lines, List.map_map]
    simp [Function.comp_def]
  · have hin : e.line - 1 < (lines text).length := by omega
    have hnumber : e.line = 0 + (e.line - 1) + 1 := by omega
    have hline := List.getElem?_eq_getElem hin
    refine ⟨_, hline, List.mem_filter.2 ⟨Text.mem_numberedFrom.2 ⟨_, hnumber, hline⟩, ?_⟩⟩
    simp
  · have hbehind : e.line = (lines text).length + 1 := by omega
    refine ⟨hbehind, ?_, fun l hl => ?_⟩
    · rw [← hshown, hbehind, Text.around_behind]
    · have hrange := Text.le_of_mem_numberedFrom (List.mem_filter.1 hl).1
      omega

/-- A comma too many on the second of three lines, two of which end with a carriage return. -/
theorem Document.error_shows_line_of_three :
    Document.parse "\x7b\r\n,\r\n\x7d" = .error (.unreadable (
      "JSON parsing error at line 2:\n       1 | \x7b\n>>>    2 | ,\n       3 | \x7d\n\n" ++
        "Error: key must be a string at line 2 column 1")) := by
  have herror : (Shaped.parse "\x7b\r\n,\r\n\x7d" : Except Json.Error Request) =
      .error ⟨.malformed .keyNotString, 2, 1⟩ := by
    rfl
  rw [(Document.error_shows_line herror).1]
  decide +kernel

end Rollout
