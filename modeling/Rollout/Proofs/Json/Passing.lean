import Rollout.Json.Reader
import Rollout.Json.Skip
import Rollout.Proofs.Json.Tokens
import Rollout.Shape.Text

/-!
# Passing over what can be read

Wherever a reader delivers a value, `skipValue` passes over a value as well and stops at the same
place.  A reader descends into containers, while `skipValue` keeps a list of the open ones, so what
is shown of a reader is that passing over its value leaves this list as it was (`Passed`).
-/

namespace Rollout.Json

open Text (Symbol)

/-- Passes the next item or member of the innermost open container, and all that follows. -/
def skipNext (n : Nat) (opened : List Container) (c : Cursor) : Except Error Cursor := do
  match opened with
  | [] => return c
  | .array :: _ => skipFrom n opened c
  | .object :: _ => skipFrom n opened (← skipName c)

/-- Passes the rest of the given open containers, from behind a value or a bracket that opens. -/
def resume (first : Bool) (n : Nat) (opened : List Container) (c : Cursor) :
    Except Error Cursor := do
  let (opened, c) ← skipClosings first opened c
  skipNext n opened c

theorem skipFrom_succ (n : Nat) (opened : List Container) (c : Cursor) :
    skipFrom (n + 1) opened c = (do
      let (new, c) ← skipStart c.skipSpace
      resume new.isSome n (new.toList ++ opened) c) := rfl

theorem skipFrom_skipSpace {n : Nat} (hn : 0 < n) (opened : List Container) (c : Cursor) :
    skipFrom n opened c.skipSpace = skipFrom n opened c := by
  obtain ⟨n, rfl⟩ : ∃ k, n = k + 1 := ⟨n - 1, by omega⟩
  rw [skipFrom_succ, skipFrom_succ, skipSpace_skipSpace]

/-- Whether passing over a value leads from one place to another, whatever containers are open.  The
bounds are of what is left to read. -/
def Passed (c c' : Cursor) : Prop :=
  ∀ opened n, c.rest.length < n → ∃ m, c'.rest.length < m ∧
    skipFrom n opened c = resume false m opened c'

/-- Whether passing over the rest of a container leads from one place to another. -/
def Closed (first : Bool) (kind : Container) (c c' : Cursor) : Prop :=
  ∀ opened n, c.rest.length < n → ∃ m, c'.rest.length < m ∧
    resume first n (kind :: opened) c = resume false m opened c'

theorem skipValue_of_passed {c c' : Cursor} (h : Passed c c') : skipValue c = .ok c' := by
  obtain ⟨m, -, hpassed⟩ := h [] (c.rest.length + 1) (Nat.lt_succ_self _)
  exact hpassed

theorem resume_closing {kind : Container} {c : Cursor} {rest : List Symbol}
    (hc : c.skipSpace.rest = some kind.closing :: rest) (first : Bool) (n : Nat)
    (opened : List Container) :
    resume first n (kind :: opened) c = resume false n opened c.skipSpace.advance := by
  rw [resume, resume, skipClosings]
  dsimp only
  rw [hc]
  simp only [if_true]

theorem resume_first (kind : Container) {c : Cursor} {s : Symbol} {rest : List Symbol}
    (hc : c.skipSpace.rest = s :: rest) (hs : s ≠ some kind.closing) (n : Nat)
    (opened : List Container) :
    resume true n (kind :: opened) c = skipNext n (kind :: opened) c.skipSpace := by
  rw [resume, skipClosings]
  dsimp only
  rw [hc]
  simp only [hs, if_false, if_true]
  rfl

theorem resume_comma {kind : Container} {c : Cursor} {rest : List Symbol}
    (hc : c.skipSpace.rest = some ',' :: rest) (n : Nat) (opened : List Container) :
    resume false n (kind :: opened) c = skipNext n (kind :: opened) c.skipSpace.advance := by
  have hs : (some ',' : Symbol) ≠ some kind.closing := by cases kind <;> decide
  rw [resume, skipClosings]
  dsimp only
  rw [hc]
  simp only [hs, if_false, if_true, Bool.false_eq_true]
  rfl

/-! ### Single tokens and brackets -/

theorem passed_of_token {c c' : Cursor} (h : skipStart c.skipSpace = .ok (none, c'))
    (hlength : c'.rest.length < c.rest.length) : Passed c c' := by
  intro opened n hn
  obtain ⟨n, rfl⟩ : ∃ k, n = k + 1 := ⟨n - 1, by omega⟩
  refine ⟨n, by omega, ?_⟩
  rw [skipFrom_succ, h]
  rfl

theorem passed_of_container {c c' : Cursor} {kind : Container}
    (h : skipStart c.skipSpace = .ok (some kind, c.skipSpace.advance))
    (hlength : c.skipSpace.advance.rest.length < c.rest.length)
    (hclosed : Closed true kind c.skipSpace.advance c') : Passed c c' := by
  intro opened n hn
  obtain ⟨n, rfl⟩ : ∃ k, n = k + 1 := ⟨n - 1, by omega⟩
  obtain ⟨m, hm, hresume⟩ := hclosed opened n (by omega)
  refine ⟨m, hm, ?_⟩
  rw [skipFrom_succ, h]
  exact hresume

section Tokens

variable {c c' : Cursor} {rest : List Symbol}

theorem length_advance_skipSpace {s : Symbol} (hc : c.skipSpace.rest = s :: rest) :
    c.skipSpace.advance.rest.length < c.rest.length :=
  Nat.lt_of_lt_of_le (length_advance_lt hc) (length_skipSpace_le c)

theorem passed_word {s : Symbol} {word : String} (hc : c.skipSpace.rest = s :: rest)
    (hs : (s, word) ∈ [(some 'n', "ull"), (some 't', "rue"), (some 'f', "alse")])
    (h : readWord word.toList c.skipSpace.advance = .ok c') : Passed c c' := by
  refine passed_of_token ?_
    (Nat.lt_of_le_of_lt (length_readWord_le h) (length_advance_skipSpace hc))
  have hstart :
      skipStart c.skipSpace = (readWord word.toList c.skipSpace.advance).map (none, ·) := by
    simp only [List.mem_cons, List.not_mem_nil, or_false, Prod.mk.injEq] at hs
    rw [skipStart, hc]
    rcases hs with ⟨rfl, rfl⟩ | ⟨rfl, rfl⟩ | ⟨rfl, rfl⟩ <;> rfl
  rw [hstart, h]
  rfl

theorem passed_negative {negative : Bool} {x : Number} (hc : c.skipSpace.rest = some '-' :: rest)
    (h : readNumber negative c.skipSpace.advance = .ok (x, c')) : Passed c c' := by
  have hskip := skipNumber_of_readNumber h
  refine passed_of_token ?_ (Nat.lt_trans (length_skipNumber hskip) (length_advance_skipSpace hc))
  rw [skipStart, hc]
  simp only [hskip, if_true]
  rfl

theorem skipStart_digit {s : Symbol} (hc : c.rest = s :: rest) (hs : (digit? s).isSome = true) :
    skipStart c = (skipNumber c).map (none, ·) := by
  have hn : s ≠ some 'n' := by rintro rfl; cases hs
  have ht : s ≠ some 't' := by rintro rfl; cases hs
  have hf : s ≠ some 'f' := by rintro rfl; cases hs
  have hminus : s ≠ some '-' := by rintro rfl; cases hs
  rw [skipStart, hc]
  simp only [hn, ht, hf, hminus, hs, if_false, if_true]

theorem passed_digit {negative : Bool} {x : Number} {s : Symbol}
    (hc : c.skipSpace.rest = s :: rest) (hs : (digit? s).isSome = true)
    (h : readNumber negative c.skipSpace = .ok (x, c')) : Passed c c' := by
  have hskip := skipNumber_of_readNumber h
  refine passed_of_token ?_ (Nat.lt_of_lt_of_le (length_skipNumber hskip) (length_skipSpace_le c))
  rw [skipStart_digit hc hs, hskip]
  rfl

theorem passed_string {x : String} (hc : c.skipSpace.rest = some '"' :: rest)
    (h : readString c.skipSpace.advance = .ok (x, c')) : Passed c c' := by
  have hskip := skipString_of_readString h
  refine passed_of_token ?_ (Nat.lt_trans (length_skipString hskip) (length_advance_skipSpace hc))
  rw [skipStart, hc]
  simp only [hskip]
  rfl

theorem passed_array (hc : c.skipSpace.rest = some '[' :: rest)
    (h : Closed true .array c.skipSpace.advance c') : Passed c c' := by
  refine passed_of_container ?_ (length_advance_skipSpace hc) h
  rw [skipStart, hc]
  rfl

theorem passed_object (hc : c.skipSpace.rest = some '\x7b' :: rest)
    (h : Closed true .object c.skipSpace.advance c') : Passed c c' := by
  refine passed_of_container ?_ (length_advance_skipSpace hc) h
  rw [skipStart, hc]
  rfl

end Tokens

/-! ### Items -/

theorem length_nextItem {first more : Bool} {c c' : Cursor}
    (h : nextItem first c = .ok (more, c')) : c'.rest.length ≤ c.rest.length := by
  have hspace := length_skipSpace_le c
  have hcomma := length_advance_le c.skipSpace
  have hnext := length_skipSpace_le c.skipSpace.advance
  unfold nextItem at h
  dsimp only at h
  split at h
  · cases h
  · split at h
    · cases h
      exact hspace
    · split at h
      · cases h
        exact hspace
      · split at h
        · split at h
          · cases h
          · split at h
            · cases h
            · cases h
              omega
        · cases h

theorem resume_item {first : Bool} {c c' : Cursor} (h : nextItem first c = .ok (true, c')) {n : Nat}
    (hn : 0 < n) (opened : List Container) :
    resume first n (.array :: opened) c = skipFrom n (.array :: opened) c' := by
  unfold nextItem at h
  dsimp only at h
  split at h
  · cases h
  · rename_i s rest hc
    split at h
    · cases h
    · rename_i hclose
      split at h
      · rename_i hfirst
        cases h
        rw [hfirst]
        exact resume_first .array hc hclose n opened
      · rename_i hfirst
        rw [Bool.eq_false_iff.2 hfirst]
        split at h
        · rename_i hcomma
          rw [hcomma] at hc
          split at h
          · cases h
          · split at h
            · cases h
            · cases h
              rw [skipFrom_skipSpace hn]
              exact resume_comma hc n opened
        · cases h

theorem closing_of_nextItem {first : Bool} {c c' : Cursor}
    (h : nextItem first c = .ok (false, c')) :
    c' = c.skipSpace ∧ ∃ rest, c'.rest = some ']' :: rest := by
  unfold nextItem at h
  dsimp only at h
  split at h
  · cases h
  · rename_i s rest hc
    split at h
    · rename_i hs
      cases h
      rw [hs] at hc
      exact ⟨rfl, rest, hc⟩
    · split at h
      · cases h
      · split at h
        · split at h
          · cases h
          · split at h <;> cases h
        · cases h

theorem endArray_of_closing {c c' : Cursor} {rest : List Symbol} (hc : c.rest = some ']' :: rest)
    (hspace : c.skipSpace = c) (h : endArray c = .ok c') : c' = c.advance := by
  unfold endArray at h
  dsimp only at h
  rw [hspace, hc] at h
  cases h
  rfl

theorem closed_of_noItem {first : Bool} {c c₁ c' : Cursor} (h : nextItem first c = .ok (false, c₁))
    (hend : endArray c₁ = .ok c') : Closed first .array c c' := by
  obtain ⟨rfl, rest, hc⟩ := closing_of_nextItem h
  cases endArray_of_closing hc (skipSpace_skipSpace c) hend
  intro opened n hn
  have hlength := length_advance_skipSpace hc
  exact ⟨n, by omega, resume_closing hc first n opened⟩

theorem closed_of_item {first : Bool} {c c₁ c₂ c' : Cursor} (h : nextItem first c = .ok (true, c₁))
    (hitem : Passed c₁ c₂) (hrest : Closed false .array c₂ c') : Closed first .array c c' := by
  intro opened n hn
  have hlength := length_nextItem h
  obtain ⟨m, hm, hpassed⟩ := hitem (.array :: opened) n (by omega)
  obtain ⟨m', hm', hclosed⟩ := hrest opened m hm
  exact ⟨m', hm', (resume_item h (by omega) opened).trans (hpassed.trans hclosed)⟩

theorem closed_of_readItems {α : Type} {item : Cursor → Outcome α}
    (hitem : ∀ {c x c'}, item c = .ok (x, c') → Passed c c') {k : Nat} {first : Bool}
    {c c' : Cursor} {xs : List α} (h : readItems item k first c = .ok (xs, c')) :
    Closed first .array c c' := by
  -- on the bound of the reader; what is passed over has bounds of its own
  induction k generalizing first c xs with
  | zero => cases h
  | succ k ih =>
    rw [readItems] at h
    obtain ⟨⟨more, c₁⟩, hnext, h⟩ := bind_eq_ok.1 h
    cases more with
    | false =>
      obtain ⟨c₂, hend, h⟩ := bind_eq_ok.1 h
      cases h
      exact closed_of_noItem hnext hend
    | true =>
      obtain ⟨⟨x, c₂⟩, hx, h⟩ := bind_eq_ok.1 h
      obtain ⟨⟨xs', c₃⟩, hxs, h⟩ := bind_eq_ok.1 h
      cases h
      exact closed_of_item hnext (hitem hx) (ih hxs)

/-! ### Members -/

theorem passColon_ok {c c' : Cursor} (h : passColon c = .ok c') :
    c' = c.skipSpace.advance ∧ ∃ rest, c.skipSpace.rest = some ':' :: rest := by
  unfold passColon at h
  dsimp only at h
  split at h
  · cases h
  · rename_i s rest hc
    split at h
    · rename_i hs
      cases h
      rw [hs] at hc
      exact ⟨rfl, rest, hc⟩
    · cases h

theorem length_passColon {c c' : Cursor} (h : passColon c = .ok c') :
    c'.rest.length < c.rest.length := by
  obtain ⟨rfl, rest, hc⟩ := passColon_ok h
  exact length_advance_skipSpace hc

theorem skipName_ok {c c₁ c₂ : Cursor} {name : String} {rest : List Symbol}
    (hc : c.skipSpace.rest = some '"' :: rest)
    (hname : readString c.skipSpace.advance = .ok (name, c₁)) (hcolon : passColon c₁ = .ok c₂) :
    skipName c = .ok c₂ := by
  obtain ⟨rfl, rest', hc₁⟩ := passColon_ok hcolon
  rw [skipName]
  dsimp only
  rw [hc]
  simp only [if_true, skipString_of_readString hname, ok_bind]
  rw [hc₁]
  rfl

/-- Whether the name of a next member stands at some place, possibly behind a comma. -/
structure Named (first : Bool) (c start : Cursor) (name : String) (c' : Cursor) : Prop where
  length : start.rest.length ≤ c.rest.length
  quote : ∃ rest, start.skipSpace.rest = some '"' :: rest
  name : readString start.skipSpace.advance = .ok (name, c')
  resumed (n : Nat) (opened : List Container) :
    resume first n (.object :: opened) c = skipNext n (.object :: opened) start

theorem nextMember_ok {first : Bool} {c c' : Cursor} {name? : Option String}
    (h : nextMember first c = .ok (name?, c')) :
    (name? = none ∧ c' = c.skipSpace ∧ ∃ rest, c'.rest = some '\x7d' :: rest) ∨
      ∃ name start, name? = some name ∧ Named first c start name c' := by
  have hspace := length_skipSpace_le c
  unfold nextMember at h
  dsimp only at h
  split at h
  · cases h
  · rename_i s rest hc
    split at h
    · rename_i hs
      cases h
      rw [hs] at hc
      exact .inl ⟨rfl, rfl, rest, hc⟩
    · rename_i hclose
      refine .inr ?_
      split at h
      · rename_i hfirst
        split at h
        · rename_i hs
          obtain ⟨⟨name, c₁⟩, hname, h⟩ := map_eq_ok.1 h
          cases h
          refine ⟨name, c.skipSpace, rfl, hspace, ⟨rest, ?_⟩, ?_, ?_⟩
          · rw [skipSpace_skipSpace, hc, hs]
          · rw [skipSpace_skipSpace, hname]
          · rw [hfirst]
            exact resume_first .object hc hclose
        · cases h
      · rename_i hfirst
        split at h
        · rename_i hcomma
          rw [hcomma] at hc
          have hlength := length_advance_lt hc
          split at h
          · cases h
          · rename_i s' rest' hc'
            split at h
            · rename_i hs'
              rw [hs'] at hc'
              obtain ⟨⟨name, c₁⟩, hname, h⟩ := map_eq_ok.1 h
              cases h
              refine ⟨name, c.skipSpace.advance, rfl, by omega, ⟨rest', hc'⟩, hname, ?_⟩
              rw [Bool.eq_false_iff.2 hfirst]
              exact resume_comma hc
            · split at h <;> cases h
        · cases h

theorem endObject_of_closing {c c' : Cursor} {rest : List Symbol}
    (hc : c.rest = some '\x7d' :: rest) (hspace : c.skipSpace = c) (h : endObject c = .ok c') :
    c' = c.advance := by
  unfold endObject at h
  dsimp only at h
  rw [hspace, hc] at h
  cases h
  rfl

theorem closed_of_noMember {first : Bool} {c c' : Cursor} {rest : List Symbol}
    (hc : c.skipSpace.rest = some '\x7d' :: rest) (hend : endObject c.skipSpace = .ok c') :
    Closed first .object c c' := by
  cases endObject_of_closing hc (skipSpace_skipSpace c) hend
  intro opened n hn
  have hlength := length_advance_skipSpace hc
  exact ⟨n, by omega, resume_closing hc first n opened⟩

theorem closed_of_member {first : Bool} {c start c₁ c₂ c₃ c' : Cursor} {name : String}
    (hnamed : Named first c start name c₁) (hcolon : passColon c₁ = .ok c₂) (hvalue : Passed c₂ c₃)
    (hrest : Closed false .object c₃ c') : Closed first .object c c' := by
  intro opened n hn
  obtain ⟨rest, hquote⟩ := hnamed.quote
  have hlength := hnamed.length
  have hstart := length_advance_skipSpace hquote
  have hname := length_skipString (skipString_of_readString hnamed.name)
  have hafter := length_passColon hcolon
  obtain ⟨m, hm, hpassed⟩ := hvalue (.object :: opened) n (by omega)
  obtain ⟨m', hm', hclosed⟩ := hrest opened m hm
  refine ⟨m', hm', ?_⟩
  rw [hnamed.resumed, skipNext, skipName_ok hquote hnamed.name hcolon, ok_bind, hpassed, hclosed]

theorem closed_of_readMembers {τ : Type} {member : String → τ → Cursor → Outcome τ}
    (hmember : ∀ {name state c r c'}, member name state c = .ok (r, c') →
      ∃ c₁, passColon c = .ok c₁ ∧ Passed c₁ c')
    {k : Nat} {first : Bool} {state state' : τ} {c c₁ c' : Cursor}
    (h : readMembers member k first state c = .ok (state', c₁)) (hend : endObject c₁ = .ok c') :
    Closed first .object c c' := by
  induction k generalizing first state c with
  | zero => cases h
  | succ k ih =>
    rw [readMembers] at h
    obtain ⟨⟨name?, c₂⟩, hnext, h⟩ := bind_eq_ok.1 h
    rcases nextMember_ok hnext with ⟨rfl, rfl, rest, hc⟩ | ⟨name, start, rfl, hnamed⟩
    · cases h
      exact closed_of_noMember hc hend
    · obtain ⟨⟨state₁, c₃⟩, hread, h⟩ := bind_eq_ok.1 h
      obtain ⟨c₄, hcolon, hvalue⟩ := hmember hread
      exact closed_of_member hnamed hcolon hvalue (ih h)

/-! ### Readers -/

theorem passed_of_readEntry {α : Type} {read : Cursor → Outcome α}
    (hread : ∀ {c x c'}, read c = .ok (x, c') → Passed c c') {name : String}
    {table table' : NameMap α} {c c' : Cursor}
    (h : readEntry read name table c = .ok (table', c')) :
    ∃ c₁, passColon c = .ok c₁ ∧ Passed c₁ c' := by
  obtain ⟨c₁, hcolon, h⟩ := bind_eq_ok.1 h
  obtain ⟨⟨x, c₂⟩, hx, h⟩ := bind_eq_ok.1 h
  cases h
  exact ⟨c₁, hcolon, hread hx⟩

/-- How a value is read between two places, with a bound on the depth. -/
inductive ReadForm (c c' : Cursor) : Nat → Json → Prop
  | atom {depth : Nat} {value : Json} (hpassed : Passed c c')
    (hvalue : ∀ members, value ≠ object members) : ReadForm c c' depth value
  | array {depth n : Nat} {items : List Json} {rest : List Symbol}
    (hc : c.skipSpace.rest = some '[' :: rest)
    (h : readItems (readValue depth) n true c.skipSpace.advance = .ok (items, c')) :
    ReadForm c c' (depth + 1) (array items)
  | object {depth : Nat} {table : NameMap Json} {rest : List Symbol} {c₁ : Cursor}
    (hc : c.skipSpace.rest = some '\x7b' :: rest)
    (h : readMembers (readEntry (readValue depth)) (c.skipSpace.rest.length + 1) true
      NameMap.empty c.skipSpace.advance = .ok (table, c₁))
    (hend : endObject c₁ = .ok c') : ReadForm c c' (depth + 1) (object table.entries)

theorem readForm_of_readValue {depth : Nat} {c c' : Cursor} {value : Json}
    (h : readValue depth c = .ok (value, c')) : ReadForm c c' depth value := by
  unfold readValue at h
  dsimp only at h
  split at h
  · cases h
  · rename_i s rest hc
    split at h
    · rename_i hs
      obtain ⟨c₁, hword, h⟩ := map_eq_ok.1 h
      cases h
      exact .atom (passed_word hc (by simp [hs]) hword) nofun
    split at h
    · rename_i hs
      obtain ⟨c₁, hword, h⟩ := map_eq_ok.1 h
      cases h
      exact .atom (passed_word hc (by simp [hs]) hword) nofun
    split at h
    · rename_i hs
      obtain ⟨c₁, hword, h⟩ := map_eq_ok.1 h
      cases h
      exact .atom (passed_word hc (by simp [hs]) hword) nofun
    split at h
    · rename_i hs
      obtain ⟨⟨n, c₁⟩, hnumber, h⟩ := map_eq_ok.1 h
      cases h
      exact .atom (passed_negative (hs ▸ hc) hnumber) nofun
    split at h
    · rename_i hs
      obtain ⟨⟨n, c₁⟩, hnumber, h⟩ := map_eq_ok.1 h
      cases h
      exact .atom (passed_digit hc hs hnumber) nofun
    split at h
    · rename_i hs
      obtain ⟨⟨x, c₁⟩, hstring, h⟩ := map_eq_ok.1 h
      cases h
      exact .atom (passed_string (hs ▸ hc) hstring) nofun
    split at h
    · rename_i hs
      cases depth with
      | zero => cases h
      | succ depth =>
        obtain ⟨⟨items, c₁⟩, hitems, h⟩ := bind_eq_ok.1 h
        cases h
        exact .array (hs ▸ hc) hitems
    split at h
    · rename_i hs
      cases depth with
      | zero => cases h
      | succ depth =>
        obtain ⟨⟨table, c₁⟩, hmembers, h⟩ := bind_eq_ok.1 h
        obtain ⟨c₂, hend, h⟩ := bind_eq_ok.1 h
        cases h
        exact .object (hs ▸ hc) hmembers hend
    · cases h

/-- Whatever a reader of any JSON value delivers can be passed over. -/
theorem passed_of_readValue {depth : Nat} {c c' : Cursor} {value : Json}
    (h : readValue depth c = .ok (value, c')) : Passed c c' := by
  -- containers are only entered where the reader may still descend
  induction depth generalizing c value c' with
  | zero =>
    cases readForm_of_readValue h with
    | atom hpassed => exact hpassed
  | succ depth ih =>
    cases readForm_of_readValue h with
    | atom hpassed => exact hpassed
    | array hc hitems => exact passed_array hc (closed_of_readItems ih hitems)
    | object hc hmembers hend =>
      exact passed_object hc (closed_of_readMembers (passed_of_readEntry ih) hmembers hend)

theorem readValue_string {depth : Nat} {c c' : Cursor} {value : Json} {rest : List Symbol}
    (hc : c.skipSpace.rest = some '"' :: rest) (h : readValue depth c = .ok (value, c')) :
    ∃ x, value = string x ∧ readString c.skipSpace.advance = .ok (x, c') := by
  unfold readValue at h
  dsimp only at h
  rw [hc] at h
  obtain ⟨⟨x, c₁⟩, hstring, h⟩ := map_eq_ok.1 h
  cases h
  exact ⟨x, rfl, hstring⟩

end Rollout.Json
