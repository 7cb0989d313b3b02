import Rollout.Proofs.Json.Spelling

/-!
# Written texts are spellings

The compact and the indented text of a value are spellings of it, if its numbers are integers of 64
bits (`Json.Whole`).
-/

namespace Rollout.Json

/-! ### Integers -/

mutual

/-- Whether all numbers of a value are integers of 64 bits. -/
def Whole : Json → Prop
  | null => True
  | bool _ => True
  | number (.int i) => Int64.minValue.toInt ≤ i ∧ i < UInt64.size
  | number (.float _) => False
  | string _ => True
  | array items => WholeItems items
  | object members => WholeMembers members

def WholeItems : List Json → Prop
  | [] => True
  | item :: items => Whole item ∧ WholeItems items

def WholeMembers : List (String × Json) → Prop
  | [] => True
  | (_, value) :: members => Whole value ∧ WholeMembers members

end

/-! ### Atoms -/

theorem hexValue_hexDigit {n : Nat} (h : n < 16) : hexValue (some (hexDigit n)) = some n := by
  have hall : ∀ m : Fin 16, hexValue (some (hexDigit m.val)) = some m.val := by decide
  exact hall ⟨n, h⟩

theorem spelledChar_escapeChar (c : Char) : SpelledChar c (escapeChar c) := by
  unfold escapeChar
  split
  · rename_i h
    exact .letter (by rw [h]; rfl)
  split
  · rename_i h
    exact .letter (by rw [h]; rfl)
  split
  · rename_i h
    exact .letter (by rw [h]; rfl)
  split
  · rename_i h
    exact .letter (by rw [h]; rfl)
  split
  · rename_i h
    exact .letter (by rw [h]; rfl)
  split
  · rename_i h
    exact .letter (by rw [h]; rfl)
  split
  · rename_i h
    exact .letter (by rw [h]; rfl)
  split
  · rename_i h
    have hzero : hexValue (some '0') = some 0 := by decide
    exact .code ⟨'0', '0', hexDigit (c.toNat / 16), hexDigit (c.toNat % 16), 0, 0, c.toNat / 16,
      c.toNat % 16, hzero, hzero, hexValue_hexDigit (by omega), hexValue_hexDigit (by omega),
      by omega, rfl⟩
  · rename_i hquote hslash _ _ _ _ _ hcontrol
    exact .plain hquote hslash (Nat.not_lt.1 hcontrol)

theorem spelledString_renderString (s : String) : SpelledString s (renderString s) := by
  refine ⟨s.toList.flatMap escapeChar, ?_, rfl⟩
  induction s.toList with
  | nil => exact .nil
  | cons c chars ih =>
    rw [List.flatMap_cons]
    exact .cons (spelledChar_escapeChar c) ih

theorem render_ofNat (n : Nat) :
    (Number.int (n : Int)).render.toList = Nat.toDigits 10 n := Nat.toList_repr

theorem render_negSucc (n : Nat) :
    (Number.int (Int.negSucc n)).render.toList = '-' :: Nat.toDigits 10 (n + 1) := by
  have hrender : (Number.int (Int.negSucc n)).render = "-" ++ (n + 1).repr := rfl
  rw [hrender, String.toList_append, Nat.toList_repr]
  rfl

theorem spelledNumber_render {i : Int} (hlow : Int64.minValue.toInt ≤ i) (hhigh : i < UInt64.size) :
    SpelledNumber (.int i) (Number.int i).render.toList := by
  cases i with
  | ofNat n =>
    rw [Int.ofNat_eq_natCast] at hhigh ⊢
    refine ⟨⟨false, n, [], [], .none, .none⟩, ?_, ?_⟩
    · exact Literal.integer?_of_unsigned rfl Bool.false_ne_true (Int.ofNat_lt.1 hhigh)
    · rw [render_ofNat]
      simp [Literal.text, Literal.scale]
  | negSucc n =>
    refine ⟨⟨true, n + 1, [], [], .none, .none⟩, ?_, ?_⟩
    · exact Literal.integer?_of_negative rfl rfl ⟨Nat.succ_pos n, hlow⟩
    · rw [render_negSucc]
      simp [Literal.text, Literal.scale]

/-! ### Compact and indented texts -/

theorem separator_comma : Separator false [','] := ⟨[], blank_nil, rfl⟩

mutual

theorem spelled_write : (json : Json) → json.Whole → Spelled json json.write
  | null, _ => by simp only [Spelled, write]
  | bool true, _ => by simp only [Spelled, write]
  | bool false, _ => by simp only [Spelled, write]
  | number (.int i), h => by
    rw [Whole] at h
    simp only [Spelled, write]
    exact spelledNumber_render h.1 h.2
  | number (.float x), h => by
    rw [Whole] at h
    exact h.elim
  | string s, _ => by
    simp only [Spelled, write]
    exact spelledString_renderString s
  | array [], _ => by
    simp only [Spelled, write, writeItems, SpelledItems]
    exact ⟨_, rfl, [], blank_nil, rfl⟩
  | array (item :: rest), h => by
    rw [Whole, WholeItems] at h
    simp only [Spelled, write, writeItems, SpelledItems]
    exact ⟨_, rfl, [], [], _, _, rfl, blank_nil, spelled_write item h.1,
      spelled_writeMoreItems rest h.2, rfl⟩
  | object [], _ => by
    simp only [Spelled, write, writeMembers, SpelledMembers]
    exact ⟨_, rfl, [], blank_nil, rfl⟩
  | object ((name, value) :: rest), h => by
    rw [Whole, WholeMembers] at h
    simp only [Spelled, write, writeMembers, SpelledMembers]
    exact ⟨_, rfl, [], [], renderString name, [], [], _, _, rfl, blank_nil,
      spelledString_renderString name, blank_nil, blank_nil, spelled_write value h.1,
      spelled_writeMoreMembers rest h.2, rfl⟩

theorem spelled_writeMoreItems :
    (items : List Json) → WholeItems items → SpelledItems false items (writeMoreItems items)
  | [], _ => by
    simp only [SpelledItems, writeMoreItems]
    exact ⟨[], blank_nil, rfl⟩
  | item :: rest, h => by
    rw [WholeItems] at h
    simp only [SpelledItems, writeMoreItems]
    exact ⟨[','], [], _, _, separator_comma, blank_nil, spelled_write item h.1,
      spelled_writeMoreItems rest h.2, rfl⟩

theorem spelled_writeMoreMembers : (members : List (String × Json)) → WholeMembers members →
    SpelledMembers false members (writeMoreMembers members)
  | [], _ => by
    simp only [SpelledMembers, writeMoreMembers]
    exact ⟨[], blank_nil, rfl⟩
  | (name, value) :: rest, h => by
    rw [WholeMembers] at h
    simp only [SpelledMembers, writeMoreMembers]
    exact ⟨[','], [], renderString name, [], [], _, _, separator_comma, blank_nil,
      spelledString_renderString name, blank_nil, blank_nil, spelled_write value h.1,
      spelled_writeMoreMembers rest h.2, rfl⟩

end

mutual

theorem spelled_writePretty (level : Nat) :
    (json : Json) → json.Whole → Spelled json (json.writePretty level)
  | null, _ => by simp only [Spelled, writePretty]
  | bool true, _ => by simp only [Spelled, writePretty]
  | bool false, _ => by simp only [Spelled, writePretty]
  | number (.int i), h => by
    rw [Whole] at h
    simp only [Spelled, writePretty]
    exact spelledNumber_render h.1 h.2
  | number (.float x), h => by
    rw [Whole] at h
    exact h.elim
  | string s, _ => by
    simp only [Spelled, writePretty]
    exact spelledString_renderString s
  | array [], _ => by
    simp only [Spelled, writePretty, SpelledItems]
    exact ⟨_, rfl, [], blank_nil, rfl⟩
  | array (item :: rest), h => by
    rw [Whole, WholeItems] at h
    simp only [Spelled, writePretty, SpelledItems]
    exact ⟨_, rfl, [], newLine (level + 1), _, _, rfl, blank_newLine _,
      spelled_writePretty (level + 1) item h.1, spelled_prettyMoreItems level rest h.2, by simp⟩
  | object [], _ => by
    simp only [Spelled, writePretty, SpelledMembers]
    exact ⟨_, rfl, [], blank_nil, rfl⟩
  | object ((name, value) :: rest), h => by
    rw [Whole, WholeMembers] at h
    simp only [Spelled, writePretty, SpelledMembers]
    exact ⟨_, rfl, [], newLine (level + 1), renderString name, [], [' '], _, _, rfl,
      blank_newLine _, spelledString_renderString name, blank_nil, by simp [Blank, Cursor.isSpace],
      spelled_writePretty (level + 1) value h.1, spelled_prettyMoreMembers level rest h.2, by simp⟩

theorem spelled_prettyMoreItems (level : Nat) : (items : List Json) → WholeItems items →
    SpelledItems false items (prettyMoreItems level items)
  | [], _ => by
    simp only [SpelledItems, prettyMoreItems]
    exact ⟨newLine level, blank_newLine level, rfl⟩
  | item :: rest, h => by
    rw [WholeItems] at h
    simp only [SpelledItems, prettyMoreItems]
    exact ⟨[','], newLine (level + 1), _, _, separator_comma, blank_newLine _,
      spelled_writePretty (level + 1) item h.1, spelled_prettyMoreItems level rest h.2, by simp⟩

theorem spelled_prettyMoreMembers (level : Nat) : (members : List (String × Json)) →
    WholeMembers members → SpelledMembers false members (prettyMoreMembers level members)
  | [], _ => by
    simp only [SpelledMembers, prettyMoreMembers]
    exact ⟨newLine level, blank_newLine level, rfl⟩
  | (name, value) :: rest, h => by
    rw [WholeMembers] at h
    simp only [SpelledMembers, prettyMoreMembers]
    exact ⟨[','], newLine (level + 1), renderString name, [], [' '], _, _, separator_comma,
      blank_newLine _, spelledString_renderString name, blank_nil, by simp [Blank, Cursor.isSpace],
      spelled_writePretty (level + 1) value h.1, spelled_prettyMoreMembers level rest h.2, by simp⟩

end

end Rollout.Json
