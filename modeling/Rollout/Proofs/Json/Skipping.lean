import Rollout.Proofs.Json.Containers
import Rollout.Proofs.Json.Passing

/-!
# Passing over spelled values

Every value is passed over up to its end, whatever its depth and its numbers are, so a member that
nobody asked for stands in nobody's way.
-/

namespace Rollout.Json

open Text (Symbol)

/-! ### Atoms -/

/-- Whether the text left at a place begins with a value that is passed over up to a text. -/
def PassedTo (c : Cursor) (tail : List Symbol) : Prop := ∃ c', Passed c c' ∧ c'.rest = tail

section Atoms

variable {space : List Char} {tail : List Symbol} {c : Cursor}

theorem passedTo_word (word : String) {x : Char} (hspace : Blank space)
    (hsolid : Cursor.isSpace (some x) = false)
    (hword : (some x, word) ∈ [(some 'n', "ull"), (some 't', "rue"), (some 'f', "alse")])
    (hc : c.rest = space.map some ++ some x :: (word.toList.map some ++ tail)) :
    PassedTo c tail := by
  have hskip := skipSpace_cons hspace hsolid hc
  obtain ⟨c', hread, hrest⟩ := readWord_spelled word.toList (advance_rest hskip)
  exact ⟨c', passed_word hskip hword hread, hrest⟩

theorem passedTo_string {s : String} {text : List Char} (h : SpelledString s text)
    (hspace : Blank space) (hc : c.rest = space.map some ++ (text.map some ++ tail)) :
    PassedTo c tail := by
  obtain ⟨body, -, hbody⟩ := id h
  have hskip : c.skipSpace.rest = some '"' :: ((body ++ ['"']).map some ++ tail) := by
    refine skipSpace_cons hspace rfl ?_
    rw [hc, hbody]
    rfl
  have htext : c.skipSpace.rest = text.map some ++ tail := by
    rw [hskip, hbody]
    rfl
  obtain ⟨-, c', hread, hrest⟩ := readString_spelled h htext
  exact ⟨c', passed_string hskip hread, hrest⟩

theorem passedTo_number {n : Number} {text : List Char} (h : SpelledNumber n text)
    (hspace : Blank space) (htail : EndsNumber tail)
    (hc : c.rest = space.map some ++ (text.map some ++ tail)) : PassedTo c tail := by
  obtain ⟨l, rfl⟩ : ∃ l : Literal, l.text = text := by
    cases n with
    | int i => exact h.imp fun _ => And.right
    | float x => exact h.imp fun _ => And.right
  have hlength := length_skipSpace_le c
  rw [Literal.text] at hc
  cases hnegative : l.negative with
  | true =>
    have hstart : c.rest = space.map some ++
        some '-' :: ((Nat.toDigits 10 l.whole).map some ++ (l.scale.map some ++ tail)) := by
      rw [hc, hnegative]
      simp
    have hskip := skipSpace_cons hspace rfl hstart
    obtain ⟨c', hnumber, hrest⟩ := skipNumber_spelled l htail (advance_rest hskip)
    refine ⟨c', passed_of_token ?_ ?_, hrest⟩
    · rw [skipStart, hskip]
      simp only [hnumber, if_true]
      rfl
    · exact Nat.lt_trans (length_skipNumber hnumber) (length_advance_skipSpace hskip)
  | false =>
    obtain ⟨x, digits, hdigits, hx⟩ := head_toDigits_solid l.whole
    have hopens : (number n).Opens x := .inr hx
    have hstart : c.rest = space.map some ++
        some x :: (digits.map some ++ (l.scale.map some ++ tail)) := by
      rw [hc, hnegative, hdigits]
      simp
    have hskip := skipSpace_cons hspace (solid_of_opens hopens).1 hstart
    have htext : c.skipSpace.rest =
        (Nat.toDigits 10 l.whole).map some ++ (l.scale.map some ++ tail) := by
      rw [hskip, hdigits]
      rfl
    obtain ⟨c', hnumber, hrest⟩ := skipNumber_spelled l htail htext
    have hdigit : (digit? (some x)).isSome = true := by
      have hsome : digit? (some x) = some (x.toNat - '0'.toNat) := if_pos hx
      rw [hsome]
      rfl
    refine ⟨c', passed_of_token ?_ ?_, hrest⟩
    · rw [skipStart_digit hskip hdigit, hnumber]
      rfl
    · exact Nat.lt_of_lt_of_le (length_skipNumber hnumber) hlength

end Atoms

/-! ### Containers -/

mutual

/-- Any value is passed over up to its end, however deep it is. -/
theorem passedTo_spelled : (json : Json) → ∀ {text : List Char}, Spelled json text →
    ∀ {space : List Char}, Blank space → ∀ {tail : List Symbol}, EndsValue tail →
    ∀ {c : Cursor}, c.rest = space.map some ++ (text.map some ++ tail) → PassedTo c tail
  | null, text, h, space, hspace, tail, _, c, hc => by
    rw [Spelled] at h
    subst h
    exact passedTo_word "ull" hspace (x := 'n') rfl (by simp) hc
  | bool true, text, h, space, hspace, tail, _, c, hc => by
    rw [Spelled] at h
    subst h
    exact passedTo_word "rue" hspace (x := 't') rfl (by simp) hc
  | bool false, text, h, space, hspace, tail, _, c, hc => by
    rw [Spelled] at h
    subst h
    exact passedTo_word "alse" hspace (x := 'f') rfl (by simp) hc
  | number n, text, h, space, hspace, tail, htail, c, hc => by
    rw [Spelled] at h
    exact passedTo_number h hspace (endsNumber_of_endsValue htail) hc
  | string s, text, h, space, hspace, tail, _, c, hc => by
    rw [Spelled] at h
    exact passedTo_string h hspace hc
  | array items, text, h, space, hspace, tail, _, c, hc => by
    rw [Spelled] at h
    obtain ⟨body, rfl, hbody⟩ := h
    have hskip := skipSpace_cons (x := '[') hspace rfl hc
    obtain ⟨c', hclosed, hrest⟩ := closed_of_spelledItems items hbody (advance_rest hskip)
    exact ⟨c', passed_array hskip hclosed, hrest⟩
  | object members, text, h, space, hspace, tail, _, c, hc => by
    rw [Spelled] at h
    obtain ⟨body, rfl, hbody⟩ := h
    have hskip := skipSpace_cons (x := '\x7b') hspace rfl hc
    obtain ⟨c', hclosed, hrest⟩ := closed_of_spelledMembers members hbody (advance_rest hskip)
    exact ⟨c', passed_object hskip hclosed, hrest⟩

theorem closed_of_spelledItems : (items : List Json) → ∀ {first : Bool} {text : List Char},
    SpelledItems first items text → ∀ {tail : List Symbol} {c : Cursor},
    c.rest = text.map some ++ tail → ∃ c', Closed first .array c c' ∧ c'.rest = tail
  | [], first, text, h, tail, c, hc => by
    obtain ⟨c₁, hnext, hc₁⟩ := nextItem_none h hc
    obtain ⟨c', hend, hrest⟩ := endArray_spelled blank_nil (c := c₁) hc₁
    exact ⟨c', closed_of_noItem hnext hend, hrest⟩
  | item :: items, first, text, h, tail, c, hc => by
    obtain ⟨c₁, value, more, hnext, hvalue, hmore, hc₁⟩ := nextItem_value h hc
    obtain ⟨c₂, hpassed, hc₂⟩ := passedTo_spelled item hvalue blank_nil
      (endsValue_of_spelledItems hmore tail) (c := c₁) hc₁
    obtain ⟨c', hclosed, hrest⟩ := closed_of_spelledItems items hmore hc₂
    exact ⟨c', closed_of_item hnext hpassed hclosed, hrest⟩

theorem closed_of_spelledMembers : (members : List (String × Json)) →
    ∀ {first : Bool} {text : List Char}, SpelledMembers first members text →
    ∀ {tail : List Symbol} {c : Cursor}, c.rest = text.map some ++ tail →
    ∃ c', Closed first .object c c' ∧ c'.rest = tail
  | [], first, text, h, tail, c, hc => by
    obtain ⟨c₁, hnext, hc₁⟩ := nextMember_none h hc
    obtain ⟨c', hend, hrest⟩ := endObject_spelled blank_nil (c := c₁) hc₁
    rcases nextMember_ok hnext with ⟨-, rfl, rest, hclose⟩ | ⟨name, start, hname, -⟩
    · exact ⟨c', closed_of_noMember hclose hend, hrest⟩
    · cases hname
  | (name, value) :: members, first, text, h, tail, c, hc => by
    obtain ⟨c₁, more, hnext, hmore, before, after, spelling, hbefore, hafter, hvalue, hc₁⟩ :=
      nextMember_value h hc
    obtain ⟨c₂, hcolon, hc₂⟩ := passColon_spelled hbefore hc₁
    obtain ⟨c₃, hpassed, hc₃⟩ := passedTo_spelled value hvalue hafter
      (endsValue_of_spelledMembers hmore tail) hc₂
    obtain ⟨c', hclosed, hrest⟩ := closed_of_spelledMembers members hmore hc₃
    rcases nextMember_ok hnext with ⟨hnone, -⟩ | ⟨name', start, -, hnamed⟩
    · cases hnone
    · exact ⟨c', closed_of_member hnamed hcolon hpassed hclosed, hrest⟩

end

/-- A member that nobody asked for is passed over from its colon on. -/
theorem AtColon.skipped {json : Json} {c : Cursor} {tail : List Symbol} (h : AtColon json c tail)
    (htail : EndsValue tail) :
    ∃ c₁ c₂, passColon c = .ok c₁ ∧ skipValue c₁ = .ok c₂ ∧ c₂.rest = tail := by
  obtain ⟨before, after, value, hbefore, hafter, hvalue, hc⟩ := h
  obtain ⟨c₁, hcolon, hc₁⟩ := passColon_spelled hbefore hc
  obtain ⟨c₂, hpassed, hrest⟩ := passedTo_spelled json hvalue hafter htail hc₁
  exact ⟨c₁, c₂, hcolon, skipValue_of_passed hpassed, hrest⟩

end Rollout.Json
