import Rollout.Proofs.Toml.Notations
import Rollout.Toml.Reader

/-!
# Lines that define a key

A line with a bare key, an equals sign and a value adds the value under this key to the top table.
The values are strings, flags and arrays of strings; an array has its items in one line or each on a
line of its own.
-/

namespace Rollout.Toml

variable {c : Char} {key value rest after text : List Char} {n depth : Nat}

/-! ### White space -/

/-- A character that is neither passed between the items of an array nor at the start of a value. -/
structure Solid (c : Char) : Prop where
  noBlank : isBlankChar c = false
  noComment : c ≠ '#'
  noFeed : c ≠ '\n'
  noReturn : c ≠ '\r'

theorem Solid.passBlanks (h : Solid c) : passBlanks (c :: rest) = c :: rest :=
  List.dropWhile_cons_of_neg (by simp [h.noBlank])

theorem passBlanks_append (blanks : List Char) (hblank : ∀ x ∈ blanks, isBlankChar x = true)
    (h : Solid c) : Toml.passBlanks (blanks ++ c :: rest) = c :: rest := by
  rw [Toml.passBlanks, List.dropWhile_append_of_pos hblank]
  exact h.passBlanks

theorem passGapFrom_solid (blanks : List Char) (hblank : ∀ x ∈ blanks, isBlankChar x = true)
    (h : Solid c) : passGapFrom (n + 1) (blanks ++ c :: rest) = c :: rest := by
  have hcomment : passComment (c :: rest) = c :: rest := by
    simp [passComment, h.noComment]
  simp only [passGapFrom, passBlanks_append blanks hblank h, hcomment,
    passNewline?_cons h.noFeed h.noReturn]

theorem passGap_solid (h : Solid c) : passGap (c :: rest) = c :: rest :=
  passGapFrom_solid [] (List.forall_mem_nil _) h

theorem passGap_newline (blanks : List Char) (hblank : ∀ x ∈ blanks, isBlankChar x = true)
    (h : Solid c) : passGap ('\n' :: (blanks ++ c :: rest)) = c :: rest :=
  passGapFrom_solid blanks hblank h

/-! ### Values -/

theorem writeString_cons (text : List Char) :
    ∃ c tail, writeString text = c :: tail ∧ (c = '"' ∨ c = '\'') := by
  unfold writeString
  cases chooseNotation text
  · exact ⟨_, _, rfl, .inl rfl⟩
  · exact ⟨_, _, rfl, .inr rfl⟩
  · exact ⟨_, _, rfl, .inl rfl⟩
  · exact ⟨_, _, rfl, .inr rfl⟩

theorem solid_of_quote (h : c = '"' ∨ c = '\'') : Solid c := by
  obtain rfl | rfl := h <;> exact ⟨rfl, by decide, by decide, by decide⟩

theorem readValue_writeString (depth : Nat) (text : List Char) (hrest : Closed rest) :
    readValue depth (writeString text ++ rest) = .ok (.text (String.ofList text), rest) := by
  have hread := readString_writeString text hrest
  obtain ⟨c, tail, heq, hc⟩ := writeString_cons text
  rw [heq, List.cons_append] at hread ⊢
  rw [readValue.eq_def]
  dsimp only
  rw [if_pos (by simpa using hc), hread]
  rfl

theorem readValue_flag (depth : Nat) (flag : Bool) (rest : List Char) :
    readValue depth ((if flag then "true" else "false").toList ++ rest) =
      .ok (.flag flag, rest) := by
  cases flag <;> cases depth <;> rfl

/-! ### Arrays of strings -/

theorem closed_cons (hdouble : c ≠ '"') (hsingle : c ≠ '\'') : Closed (c :: rest) :=
  ⟨by simpa using hdouble, by simpa using hsingle⟩

theorem passGap_writeString (string rest : List Char) :
    passGap (writeString string ++ rest) = writeString string ++ rest := by
  obtain ⟨c, tail, heq, hc⟩ := writeString_cons string
  rw [heq]
  exact passGap_solid (solid_of_quote hc)

theorem passGap_row (string rest : List Char) :
    passGap ('\n' :: ("    ".toList ++ (writeString string ++ rest))) =
      writeString string ++ rest := by
  obtain ⟨c, tail, heq, hc⟩ := writeString_cons string
  rw [heq]
  exact passGap_newline "    ".toList (List.all_eq_true.1 rfl) (solid_of_quote hc)

theorem head?_writeString_ne (string rest : List Char) :
    (writeString string ++ rest).head? ≠ some ']' := by
  obtain ⟨c, tail, heq, hc⟩ := writeString_cons string
  rw [heq]
  obtain rfl | rfl := hc <;> simp

theorem readItems_end (h : passGap text = ']' :: rest) :
    readItems (readValue depth) (n + 1) text = .ok ([], rest) := by
  rw [readItems, h]
  rfl

theorem readItems_last (string : List Char) (h : passGap text = writeString string ++ ']' :: rest) :
    readItems (readValue depth) (n + 1) text =
      .ok ([((writeString string ++ ']' :: rest).length, .text (String.ofList string))], rest) := by
  have hclosed : Closed (']' :: rest) := closed_cons (by decide) (by decide)
  have hitem := readValue_writeString depth string hclosed
  have hend : passGap (']' :: rest) = ']' :: rest :=
    passGap_solid ⟨rfl, by decide, by decide, by decide⟩
  rw [readItems, h, if_neg (head?_writeString_ne string _), hitem]
  simp [bind, Except.bind, hend]
  rfl

/-- An item with a comma after it stands before the others. -/
theorem readItems_next {items : List (Nat × Node)} (string : List Char)
    (h : passGap text = writeString string ++ ',' :: rest)
    (hrest : readItems (readValue depth) n rest = .ok (items, after)) :
    readItems (readValue depth) (n + 1) text =
      .ok (((writeString string ++ ',' :: rest).length, .text (String.ofList string)) :: items,
        after) := by
  have hclosed : Closed (',' :: rest) := closed_cons (by decide) (by decide)
  have hitem := readValue_writeString depth string hclosed
  have hcomma : passGap (',' :: rest) = ',' :: rest :=
    passGap_solid ⟨rfl, by decide, by decide, by decide⟩
  rw [readItems, h, if_neg (head?_writeString_ne string _), hitem]
  simp only [hcomma, hrest, bind, Except.bind, List.head?_cons, List.tail_cons, if_pos]
  rfl

/-- Strings as items of an array, each on a line of its own. -/
def rows (strings : List (List Char)) : List Char :=
  strings.flatMap fun string => "    ".toList ++ writeString string ++ [',', '\n']

theorem rows_cons (string : List Char) (strings : List (List Char)) (rest : List Char) :
    rows (string :: strings) ++ rest =
      "    ".toList ++ (writeString string ++ ',' :: '\n' :: (rows strings ++ rest)) := by
  simp [rows]

theorem readItems_rows (strings : List (List Char)) (depth : Nat) (rest : List Char)
    (h : strings.length < n) :
    ∃ items, readItems (readValue depth) n ('\n' :: (rows strings ++ ']' :: rest)) =
      .ok (items, rest) ∧ items.map Prod.snd = strings.map fun s => .text (String.ofList s) := by
  induction strings generalizing n with
  | nil =>
    obtain ⟨n, rfl⟩ := Nat.exists_eq_add_one_of_ne_zero (Nat.ne_of_gt h)
    refine ⟨[], readItems_end ?_, rfl⟩
    exact passGap_newline [] (List.forall_mem_nil _) ⟨rfl, by decide, by decide, by decide⟩
  | cons string strings ih =>
    obtain ⟨n, rfl⟩ := Nat.exists_eq_add_one_of_ne_zero (Nat.ne_zero_of_lt h)
    obtain ⟨items, hread, heq⟩ := ih (Nat.lt_of_succ_lt_succ h)
    rw [rows_cons]
    exact ⟨_, readItems_next string (passGap_row string _) hread, by rw [List.map_cons, heq]; rfl⟩

theorem length_le_rows (strings : List (List Char)) : strings.length ≤ (rows strings).length := by
  induction strings with
  | nil => exact Nat.le_refl 0
  | cons string strings ih =>
    have hcons := rows_cons string strings []
    rw [List.append_nil, List.append_nil] at hcons
    rw [hcons]
    simp only [List.length_append, List.length_cons]
    omega

theorem readValue_array {items : List (Nat × Node)}
    (h : readItems (readValue depth) (text.length + 1) text = .ok (items, rest)) :
    readValue (depth + 1) ('[' :: text) = .ok (.array items, rest) := by
  rw [readValue.eq_def]
  dsimp only
  rw [if_neg (by decide), if_pos rfl, h]
  rfl

/-! ### Keys -/

theorem isBareChar_ne (h : isBareChar c = true) :
    isBlankChar c = false ∧ c ≠ '"' ∧ c ≠ '\'' ∧ c ≠ '[' ∧ c ≠ '#' ∧ c ≠ '\n' ∧ c ≠ '\r' := by
  refine ⟨?_, ?_⟩
  · rw [Bool.eq_false_iff]
    intro hblank
    simp only [isBlankChar, Bool.or_eq_true, decide_eq_true_eq] at hblank
    obtain rfl | rfl := hblank <;> exact absurd h (by decide)
  · refine ⟨?_, ?_, ?_, ?_, ?_, ?_⟩ <;> rintro rfl <;> exact absurd h (by decide)

theorem readPart_bare (hkey : ∀ x ∈ key, isBareChar x = true) (hsome : key ≠ [])
    (rest : List Char) :
    readPart (key ++ ' ' :: rest) =
      .ok (⟨String.ofList key, (key ++ ' ' :: rest).length⟩, ' ' :: rest) := by
  have hblank : ¬isBareChar ' ' = true := by decide
  obtain ⟨c, tail, rfl⟩ := List.exists_cons_of_ne_nil hsome
  obtain ⟨-, hdouble, hsingle, -⟩ := isBareChar_ne (hkey c List.mem_cons_self)
  rw [readPart, if_neg (by simp [hdouble, hsingle]), List.takeWhile_append_of_pos hkey,
    List.dropWhile_append_of_pos hkey, List.takeWhile_cons_of_neg hblank,
    List.dropWhile_cons_of_neg hblank, List.append_nil]
  rfl

theorem passBlanks_bare (hkey : ∀ x ∈ key, isBareChar x = true) (hsome : key ≠ [])
    (rest : List Char) : passBlanks (key ++ rest) = key ++ rest := by
  obtain ⟨c, tail, rfl⟩ := List.exists_cons_of_ne_nil hsome
  have hblank := (isBareChar_ne (hkey c List.mem_cons_self)).1
  exact List.dropWhile_cons_of_neg (by simp [hblank])

theorem readKey_bare (hkey : ∀ x ∈ key, isBareChar x = true) (hsome : key ≠ [])
    (rest : List Char) :
    readKey (key ++ ' ' :: '=' :: rest) =
      .ok (([], ⟨String.ofList key, (key ++ ' ' :: '=' :: rest).length⟩), '=' :: rest) := by
  rw [readKey, depthLimit, readParts, passBlanks_bare hkey hsome,
    readPart_bare hkey hsome ('=' :: rest)]
  rfl

/-! ### Lines -/

variable {entries : Entries} {node : Node}

theorem find?_eq_none {name : String} (h : ∀ e ∈ entries, e.1.name ≠ name) :
    entries.find? name = none := by
  rw [Entries.find?, List.find?_eq_none.2 (by simpa using h)]
  rfl

theorem define_of_new {name : Toml.Key} {place : Nat} (h : ∀ e ∈ entries, e.1.name ≠ name.name) :
    descend false (define [] name place node) [] .header entries =
      some (entries ++ [(name, place, node)]) := by
  simp [descend, define, find?_eq_none h, Entries.add]

/-- A line with a new key adds the value under this key. -/
theorem readDefinition_line (hkey : ∀ x ∈ key, isBareChar x = true) (hsome : key ≠ [])
    (hnew : ∀ e ∈ entries, e.1.name ≠ String.ofList key)
    (hstart : passBlanks (' ' :: value) = value)
    (hvalue : readValue depthLimit value = .ok (node, '\n' :: rest)) :
    ∃ start place, readDefinition ⟨entries, []⟩ (key ++ ' ' :: '=' :: ' ' :: value) =
      .ok (⟨entries ++ [(⟨String.ofList key, start⟩, place, node)], []⟩, rest) := by
  have hend : endLine ('\n' :: rest) = .ok rest := rfl
  refine ⟨(key ++ ' ' :: '=' :: ' ' :: value).length, value.length, ?_⟩
  rw [readDefinition, readKey_bare hkey hsome]
  simp only [bind, Except.bind, passChar, List.head?_cons, if_pos, List.tail_cons, hstart, hvalue,
    hend]
  rw [define_of_new hnew]
  rfl

theorem readLines_line (hkey : ∀ x ∈ key, isBareChar x = true) (hsome : key ≠ [])
    (hnew : ∀ e ∈ entries, e.1.name ≠ String.ofList key)
    (hstart : passBlanks (' ' :: value) = value)
    (hvalue : readValue depthLimit value = .ok (node, '\n' :: rest)) :
    ∃ start place, readLines (n + 1) ⟨entries, []⟩ (key ++ ' ' :: '=' :: ' ' :: value) =
      readLines n ⟨entries ++ [(⟨String.ofList key, start⟩, place, node)], []⟩ rest := by
  obtain ⟨start, place, hread⟩ := readDefinition_line hkey hsome hnew hstart hvalue
  refine ⟨start, place, ?_⟩
  have hblanks := passBlanks_bare hkey hsome (' ' :: '=' :: ' ' :: value)
  obtain ⟨c, tail, rfl⟩ := List.exists_cons_of_ne_nil hsome
  obtain ⟨-, -, -, hheader, hcomment, hfeed, hreturn⟩ := isBareChar_ne (hkey c List.mem_cons_self)
  rw [readLines, hblanks]
  rw [List.cons_append] at hread ⊢
  simp only [hheader, hcomment, hfeed, hreturn, decide_false, Bool.or_false, Bool.false_eq_true,
    if_false, hread]
  rfl

theorem readLines_end : readLines (n + 1) ⟨entries, []⟩ [] = .ok entries := rfl

end Rollout.Toml
