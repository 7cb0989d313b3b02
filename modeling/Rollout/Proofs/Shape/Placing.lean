import Mathlib.Data.List.Count
import Rollout.Proofs.Json.Placing
import Rollout.Shape.Shaped

/-!
# The lines of errors of shapes

The readers of all shapes stay inside the text, so the line of an error is one of those that the
line feeds of the text begin and end (`Shaped.line_of_parse`).
-/

namespace Rollout

open Json (Cursor Outcome Stays StaysInside)

variable {α σ : Type} {last : Nat} {c : Cursor}

/-! ### Values of one token -/

theorem stays_atValue (h : c.Inside last) : Stays last id (atValue c) := by
  unfold atValue
  dsimp only
  split
  · exact h.skipSpace.failNext _
  · exact h.skipSpace

theorem stays_unexpected {place : α → Cursor} (h : c.Inside last) (expected : String) :
    Stays last place (unexpected expected c) := by
  have hword := fun word => Json.stays_readWord h.advance word
  unfold unexpected
  split
  · exact h.failNext _
  · split_ifs
    · exact (hword _).bind fun c h => Cursor.Inside.mismatch h _
    · exact (hword _).bind fun c h => Cursor.Inside.mismatch h _
    · exact (hword _).bind fun c h => Cursor.Inside.mismatch h _
    · exact (Json.staysInside_readNumber _ h.advance).bind fun ⟨n, c⟩ h => h.mismatch _
    · exact (Json.staysInside_readNumber _ h).bind fun ⟨n, c⟩ h => h.mismatch _
    · exact (Json.staysInside_readString h.advance).bind fun ⟨s, c⟩ h => h.mismatch _
    · exact h.mismatch _
    · exact h.mismatch _
    · exact h.failNext _

theorem staysInside_readText (expected : String) : StaysInside last (readText expected) := by
  intro c h
  refine (stays_atValue h).bind fun c h => ?_
  split
  · exact Json.staysInside_readString (Cursor.Inside.advance h)
  · exact stays_unexpected h _

theorem staysInside_readInteger (convert : Json.Number → Except Mismatch α) (expected : String) :
    StaysInside last (readInteger convert expected) := by
  intro c h
  refine (stays_atValue h).bind fun c h => ?_
  dsimp only
  split
  · refine (Json.staysInside_readNumber _ (Cursor.Inside.advance h)).bind fun ⟨n, c⟩ h => ?_
    dsimp only
    split
    · exact h
    · exact h.mismatch _
  · split
    · refine (Json.staysInside_readNumber _ h).bind fun ⟨n, c⟩ h => ?_
      dsimp only
      split
      · exact h
      · exact h.mismatch _
    · exact stays_unexpected h _

theorem staysInside_readFlag : StaysInside last readFlag := by
  intro c h
  refine (stays_atValue h).bind fun c h => ?_
  have hword := fun word => Json.stays_readWord (Cursor.Inside.advance h) word
  split
  · exact (hword _).bind fun c h => h
  · split
    · exact (hword _).bind fun c h => h
    · exact stays_unexpected h _

theorem staysInside_readTextAs (convert : String → Except Mismatch α) (expected : String) :
    StaysInside last (readTextAs convert expected) := by
  intro c h
  refine (staysInside_readText expected h).bind fun ⟨text, c⟩ h => ?_
  dsimp only
  split
  · exact h
  · exact h.mismatch _

theorem stays_readNull (h : c.Inside last) : Stays last id (readNull c) := by
  refine (stays_atValue h).bind fun c h => ?_
  split
  · exact Json.stays_readWord (Cursor.Inside.advance h) _
  · exact stays_unexpected h _

theorem staysInside_readChoice (names : List String) : StaysInside last (readChoice names) := by
  intro c h
  have hspace := h.skipSpace
  unfold readChoice
  dsimp only
  split
  · exact hspace.failNext _
  · split
    · refine (staysInside_readTextAs _ _ hspace.advance).bind fun ⟨i, c⟩ h => ?_
      refine (Json.stays_passColon h).bind fun c h => ?_
      refine (stays_readNull h).bind fun c h => ?_
      have hend := Cursor.Inside.skipSpace h
      dsimp only
      split
      · exact hend.fail _
      · split
        · exact hend.advance
        · exact hend.fail _
    · split
      · exact staysInside_readTextAs _ _ hspace
      · exact hspace.failNext _

/-! ### Containers -/

theorem staysInside_readSequence {item : Cursor → Outcome α} (hitem : StaysInside last item) :
    StaysInside last (readSequence item) := by
  intro c h
  refine (stays_atValue h).bind fun c h => ?_
  split
  · exact Json.staysInside_readItems hitem _ true (Cursor.Inside.advance h)
  · exact stays_unexpected h _

theorem staysInside_readTable {value : Cursor → Outcome α} (hvalue : StaysInside last value) :
    StaysInside last (readTable value) := by
  intro c h
  refine (stays_atValue h).bind fun c h => ?_
  split
  · refine (Json.stays_readMembers (Json.staysInside_readEntry hvalue) (Cursor.Inside.advance h)
      _ _ _).bind fun ⟨table, c⟩ h => ?_
    exact (Json.stays_endObject h).bind fun c h => h
  · exact stays_unexpected h _

theorem staysInside_readNamed {closed : Bool} {known : List String}
    {field : String → σ → Cursor → Option (Outcome σ)}
    (hfield : ∀ name draft {c : Cursor} {result : Outcome σ}, c.Inside last →
      field name draft c = some result → Stays last Prod.snd result) (name : String) (draft : σ) :
    StaysInside last (readNamed closed known field name draft) := by
  intro c h
  unfold readNamed
  split
  · rename_i result hresult
    exact hfield name draft h hresult
  · split
    · exact h.pastObject.mismatch _
    · refine (Json.stays_passColon h).bind fun c h => ?_
      exact (Json.stays_skipValue h).bind fun c h => h

/-! ### Shapes -/

mutual

theorem Shape.staysInside_read : (shape : Shape) → StaysInside last shape.read
  | .text => fun h => by
    rw [Shape.read]
    exact staysInside_readText _ h
  | .path => fun h => by
    rw [Shape.read]
    exact staysInside_readText _ h
  | .int64 => fun h => by
    rw [Shape.read]
    exact staysInside_readInteger _ _ h
  | .uint64 => fun h => by
    rw [Shape.read]
    exact staysInside_readInteger _ _ h
  | .uint32 => fun h => by
    rw [Shape.read]
    exact staysInside_readInteger _ _ h
  | .flag => fun h => by
    rw [Shape.read]
    exact staysInside_readFlag h
  | .time => fun h => by
    rw [Shape.read]
    exact staysInside_readTextAs _ _ h
  | .choice names => fun h => by
    rw [Shape.read]
    exact staysInside_readChoice names h
  | .optional inner => fun h => by
    have hspace := h.skipSpace
    rw [Shape.read]
    dsimp only
    split
    · exact (Json.stays_readWord hspace.advance _).bind fun c h => h
    · exact (inner.staysInside_read hspace).bind fun ⟨x, c⟩ h => h
  | .sequence item => fun h => by
    rw [Shape.read]
    exact staysInside_readSequence item.staysInside_read h
  | .nameSet => fun h => by
    rw [Shape.read]
    exact (staysInside_readSequence (staysInside_readText _) h).bind fun ⟨names, c⟩ h => h
  | .table value => fun h => by
    rw [Shape.read]
    exact staysInside_readTable value.staysInside_read h
  | .pair first second => fun h => by
    rw [Shape.read]
    refine (stays_atValue h).bind fun c h => ?_
    split
    · refine (Json.stays_nextItem (Cursor.Inside.advance h) true).bind fun ⟨more, c⟩ h => ?_
      dsimp only
      split
      · exact h.pastArray.mismatch _
      · refine (first.staysInside_read h).bind fun ⟨a, c⟩ h => ?_
        refine (Json.stays_nextItem h false).bind fun ⟨more, c⟩ h => ?_
        dsimp only
        split
        · exact h.pastArray.mismatch _
        · refine (second.staysInside_read h).bind fun ⟨b, c⟩ h => ?_
          exact (Json.stays_endArray h).bind fun c h => h
    · exact stays_unexpected h _
  | .record title closed fields => fun h => by
    rw [Shape.read]
    refine (stays_atValue h).bind fun c h => ?_
    split
    · refine (fields.staysInside_readItems _ _ (Cursor.Inside.advance h)).bind
        fun ⟨values, c⟩ h => ?_
      exact (Json.stays_endArray h).bind fun c h => h
    · split
      · refine (Json.stays_readMembers (staysInside_readNamed fields.stays_readMember)
          (Cursor.Inside.advance h) _ _ _).bind fun ⟨draft, c⟩ h => ?_
        dsimp only
        split
        · exact h.pastObject.mismatch _
        · exact (Json.stays_endObject h).bind fun c h => h
      · exact stays_unexpected h _

theorem Layout.stays_readMember : (fields : Layout) → ∀ (key : String) (draft : fields.Draft)
    {c : Cursor} {result : Outcome fields.Draft}, c.Inside last →
    fields.readMember key draft c = some result → Stays last Prod.snd result
  | .nil, _, _, _, _, _, hresult => nomatch hresult
  | .field name aliases presence shape rest, key, (value, others), c, result, h, hresult => by
    rw [Layout.readMember] at hresult
    split at hresult
    · cases hresult
      split
      · exact h.pastObject.mismatch _
      · refine (Json.stays_passColon h).bind fun c h => ?_
        exact (shape.staysInside_read h).bind fun ⟨x, c⟩ h => h
    · obtain ⟨result', hrest, rfl⟩ := Option.map_eq_some_iff.1 hresult
      exact (rest.stays_readMember key others h hrest).map fun _ => rfl

theorem Layout.staysInside_readItems : (fields : Layout) → ∀ (expected : String) (index : Nat),
    StaysInside last (fields.readItems expected index)
  | .nil, _, _ => fun h => by
    rw [Layout.readItems]
    exact h
  | .field name aliases presence shape rest, expected, index => fun h => by
    rw [Layout.readItems]
    refine (Json.stays_nextItem h _).bind fun ⟨more, c⟩ h => ?_
    dsimp only
    split
    · refine (shape.staysInside_read h).bind fun ⟨x, c⟩ h => ?_
      exact (rest.staysInside_readItems expected (index + 1) h).bind fun ⟨others, c⟩ h => h
    · split
      · exact (rest.staysInside_readItems expected (index + 1) h).bind fun ⟨others, c⟩ h => h
      · exact h.pastArray.mismatch _

end

/-! ### Texts -/

/-- The line of an error is one of those that the line feeds of the text begin and end. -/
theorem Shaped.line_of_parse [Shaped α] {text : String} {e : Json.Error}
    (h : (Shaped.parse text : Except Json.Error α) = .error e) :
    1 ≤ e.line ∧ e.line ≤ text.toList.count '\n' + 1 := by
  have hstart : (Cursor.start (Text.symbols text)).Inside (text.toList.count '\n' + 1) := by
    refine ⟨Nat.le_refl 1, ?_⟩
    have hcount : (Text.symbols text).count (some '\n') = text.toList.count '\n' :=
      List.count_map_of_injective _ _ (fun _ _ => Option.some.inj) '\n'
    rw [Cursor.start, hcount, Nat.add_comm]
  have hread := (shape α).staysInside_read hstart
  rw [Shaped.parse, Shaped.parseSymbols] at h
  cases hresult : (shape α).read (Cursor.start (Text.symbols text)) with
  | error e' =>
    rw [hresult] at h hread
    cases h
    exact hread
  | ok result =>
    rw [hresult] at h hread
    exact Json.stays_endText hread _ e h

end Rollout
