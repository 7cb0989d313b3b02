import Rollout.Proofs.Json.Passing

/-!
# Passing over what has a shape

Where a value of a shape is read, `Json.skipValue` passes over it and stops at the same place, and
so does the reader of arbitrary values, if it delivers one.
-/

namespace Rollout

open Json (Cursor Passed bind_eq_ok)

theorem ne_ok_of_bind {ε α β : Type} {x : Except ε α} {f : α → Except ε β} {b : β}
    (hf : ∀ a, f a ≠ .ok b) : (x >>= f) ≠ .ok b := by
  intro h
  obtain ⟨a, -, h⟩ := bind_eq_ok.1 h
  exact hf a h

theorem mismatch_ne_ok {α : Type} {c : Cursor} {m : Mismatch} {a : α} : c.mismatch m ≠ .ok a := by
  rintro ⟨⟩

theorem failNext_ne_ok {α : Type} {c : Cursor} {fault : Json.Fault} {a : α} :
    c.failNext fault ≠ .ok a := by
  rintro ⟨⟩

/-- What stands in the place of a value is read for the message only: every way ends in a fault. -/
theorem unexpected_ne_ok {α : Type} {expected : String} {c : Cursor} {a : α} :
    unexpected expected c ≠ .ok a := by
  unfold unexpected
  repeat' split
  all_goals
    first
      | exact failNext_ne_ok
      | exact mismatch_ne_ok
      | exact ne_ok_of_bind fun _ => mismatch_ne_ok

theorem atValue_ok {c c' : Cursor} (h : atValue c = .ok c') : c' = c.skipSpace := by
  unfold atValue at h
  dsimp only at h
  split at h
  · cases h
  · cases h
    rfl

theorem rest_of_nextChar? {c : Cursor} {x : Char} (h : c.nextChar? = some x) :
    ∃ rest, c.rest = some x :: rest := by
  unfold Cursor.nextChar? at h
  cases hc : c.rest with
  | nil => rw [hc] at h; cases h
  | cons s rest =>
    rw [hc, List.head?_cons, Option.join_some] at h
    exact ⟨rest, by rw [h]⟩

/-- Whether whatever is read of a shape can be passed over. -/
def Shape.Passes (shape : Shape) : Prop :=
  ∀ ⦃c : Cursor⦄ ⦃x : shape.Carrier⦄ ⦃c' : Cursor⦄, shape.read c = .ok (x, c') → Passed c c'

/-! ### Texts and numbers -/

theorem readText_ok {expected : String} {c c' : Cursor} {s : String}
    (h : readText expected c = .ok (s, c')) :
    (∃ rest, c.skipSpace.rest = some '"' :: rest) ∧
      Json.readString c.skipSpace.advance = .ok (s, c') := by
  obtain ⟨c₁, hat, h⟩ := bind_eq_ok.1 h
  cases atValue_ok hat
  split at h
  · rename_i hquote
    exact ⟨rest_of_nextChar? hquote, h⟩
  · exact absurd h unexpected_ne_ok

theorem passes_text : Shape.text.Passes := by
  intro c s c' h
  rw [Shape.read] at h
  obtain ⟨⟨rest, hc⟩, hstring⟩ := readText_ok h
  exact Json.passed_string hc hstring

theorem passed_of_readInteger {α : Type} {convert : Json.Number → Except Mismatch α}
    {expected : String} {c c' : Cursor} {a : α}
    (h : readInteger convert expected c = .ok (a, c')) : Passed c c' := by
  obtain ⟨c₁, hat, h⟩ := bind_eq_ok.1 h
  cases atValue_ok hat
  dsimp only at h
  split at h
  · rename_i hminus
    obtain ⟨rest, hc⟩ := rest_of_nextChar? hminus
    obtain ⟨⟨n, c₂⟩, hnumber, h⟩ := bind_eq_ok.1 h
    dsimp only at h
    split at h
    · cases h
      exact Json.passed_negative hc hnumber
    · cases h
  · split at h
    · rename_i hdigit
      obtain ⟨⟨n, c₂⟩, hnumber, h⟩ := bind_eq_ok.1 h
      dsimp only at h
      split at h
      · cases h
        cases hc : c.skipSpace.rest with
        | nil => rw [hc] at hdigit; cases hdigit
        | cons s rest =>
          rw [hc] at hdigit
          exact Json.passed_digit hc hdigit hnumber
      · cases h
    · exact absurd h unexpected_ne_ok

theorem passes_int64 : Shape.int64.Passes := by
  intro c n c' h
  rw [Shape.read] at h
  exact passed_of_readInteger h

theorem passes_uint64 : Shape.uint64.Passes := by
  intro c n c' h
  rw [Shape.read] at h
  exact passed_of_readInteger h

/-! ### Containers -/

theorem passed_of_skipSpace {c c' : Cursor} (h : Passed c.skipSpace c') : Passed c c' := by
  intro opened n hn
  have hlength := Json.length_skipSpace_le c
  obtain ⟨m, hm, hpassed⟩ := h opened n (by omega)
  rw [Json.skipFrom_skipSpace (by omega)] at hpassed
  exact ⟨m, hm, hpassed⟩

theorem Shape.Passes.optional {inner : Shape} (hinner : inner.Passes) :
    (Shape.optional inner).Passes := by
  intro c x c' h
  rw [Shape.read] at h
  dsimp only at h
  split at h
  · rename_i hnull
    obtain ⟨rest, hc⟩ := rest_of_nextChar? hnull
    obtain ⟨c₁, hword, h⟩ := bind_eq_ok.1 h
    cases h
    exact Json.passed_word hc (by simp) hword
  · obtain ⟨⟨y, c₁⟩, hread, h⟩ := bind_eq_ok.1 h
    cases h
    exact passed_of_skipSpace (hinner hread)

theorem Shape.Passes.sequence {item : Shape} (hitem : item.Passes) :
    (Shape.sequence item).Passes := by
  intro c xs c' h
  rw [Shape.read] at h
  obtain ⟨c₁, hat, h⟩ := bind_eq_ok.1 h
  cases atValue_ok hat
  split at h
  · rename_i hbracket
    obtain ⟨rest, hc⟩ := rest_of_nextChar? hbracket
    exact Json.passed_array hc (Json.closed_of_readItems (fun hx => hitem hx) h)
  · exact absurd h unexpected_ne_ok

theorem Shape.Passes.table {value : Shape} (hvalue : value.Passes) :
    (Shape.table value).Passes := by
  intro c table c' h
  rw [Shape.read] at h
  obtain ⟨c₁, hat, h⟩ := bind_eq_ok.1 h
  cases atValue_ok hat
  split at h
  · rename_i hbracket
    obtain ⟨rest, hc⟩ := rest_of_nextChar? hbracket
    obtain ⟨⟨entries, c₂⟩, hmembers, h⟩ := bind_eq_ok.1 h
    obtain ⟨c₃, hend, h⟩ := bind_eq_ok.1 h
    cases h
    exact Json.passed_object hc
      (Json.closed_of_readMembers (Json.passed_of_readEntry fun hx => hvalue hx) hmembers hend)
  · exact absurd h unexpected_ne_ok

/-! ### Members of records -/

/-- Whether whatever is read of any field can be passed over. -/
def Layout.Passes : Layout → Prop
  | .nil => True
  | .field _ _ _ shape rest => shape.Passes ∧ rest.Passes

theorem Layout.passed_of_readMember : (fields : Layout) → fields.Passes →
    ∀ {key : String} {draft draft' : fields.Draft} {c c' : Cursor},
      fields.readMember key draft c = some (.ok (draft', c')) →
      ∃ c₁, Json.passColon c = .ok c₁ ∧ Passed c₁ c'
  | .nil, _, _, _, _, _, _, h => by cases h
  | .field name aliases presence shape rest, hpasses, key, draft, draft', c, c', h => by
    obtain ⟨value, others⟩ := draft
    rw [Layout.readMember] at h
    split at h
    · have hread := Option.some.inj h
      split at hread
      · cases hread
      · obtain ⟨c₁, hcolon, hread⟩ := bind_eq_ok.1 hread
        obtain ⟨⟨x, c₂⟩, hx, hread⟩ := bind_eq_ok.1 hread
        cases hread
        exact ⟨c₁, hcolon, hpasses.1 hx⟩
    · obtain ⟨outcome, hrest, hmap⟩ := Option.map_eq_some_iff.1 h
      obtain ⟨⟨others', c₂⟩, rfl, heq⟩ := Json.map_eq_ok.1 hmap
      cases heq
      exact rest.passed_of_readMember hpasses.2 hrest

/-- A member of an open record is passed over from its colon on, whether a field has its name or
not. -/
theorem skipValue_of_readNamed {fields : Layout} (hpasses : fields.Passes) {known : List String}
    {name : String} {draft draft' : fields.Draft} {c c' : Cursor}
    (h : readNamed false known fields.readMember name draft c = .ok (draft', c')) :
    ∃ c₁, Json.passColon c = .ok c₁ ∧ Json.skipValue c₁ = .ok c' := by
  unfold readNamed at h
  split at h
  · rename_i outcome hfield
    rw [h] at hfield
    obtain ⟨c₁, hcolon, hpassed⟩ := fields.passed_of_readMember hpasses hfield
    exact ⟨c₁, hcolon, Json.skipValue_of_passed hpassed⟩
  · obtain ⟨c₁, hcolon, h⟩ := bind_eq_ok.1 h
    obtain ⟨c₂, hskip, h⟩ := bind_eq_ok.1 h
    cases h
    exact ⟨c₁, hcolon, hskip⟩

/-! ### Two readers of one object -/

/-- Two readers of members that stop at the same places read the same members, so what the readers
of single members keep up holds of their results. -/
theorem readMembers_agree {α β : Type} {member : String → α → Cursor → Json.Outcome α}
    {member' : String → β → Cursor → Json.Outcome β} {R : α → β → Prop}
    (hstep : ∀ {name a b c a' c₁ b' c₂}, R a b → member name a c = .ok (a', c₁) →
      member' name b c = .ok (b', c₂) → c₁ = c₂ ∧ R a' b')
    {n : Nat} {first : Bool} {a a' : α} {b b' : β} {c c₁ c₂ : Cursor} (hR : R a b)
    (h : Json.readMembers member n first a c = .ok (a', c₁))
    (h' : Json.readMembers member' n first b c = .ok (b', c₂)) : R a' b' := by
  induction n generalizing first a b c with
  | zero => cases h
  | succ n ih =>
    rw [Json.readMembers] at h h'
    obtain ⟨⟨name?, c₃⟩, hnext, h⟩ := bind_eq_ok.1 h
    rw [hnext, Json.ok_bind] at h'
    cases name? with
    | none =>
      cases h
      cases h'
      exact hR
    | some name =>
      obtain ⟨⟨a₁, c₄⟩, hmember, h⟩ := bind_eq_ok.1 h
      obtain ⟨⟨b₁, c₅⟩, hmember', h'⟩ := bind_eq_ok.1 h'
      obtain ⟨rfl, hR₁⟩ := hstep hR hmember hmember'
      exact ih hR₁ h h'

end Rollout
