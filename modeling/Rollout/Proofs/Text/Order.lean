import Rollout.Proofs.Text.Utf8

/-!
# The order of texts and of their bytes

Texts stand in the order of their code points.  Their UTF-8 bytes stand in the same order: the bytes
of two characters differ first where the greater character has the greater byte, whatever follows
them, and a character has at least one byte.
-/

namespace Rollout.Text

theorem cons_byte_lt {m n : Nat} {bytes bytes' : List UInt8} (hbyte : n < 256) (hle : m ≤ n)
    (h : m = n → bytes < bytes') : m.toUInt8 :: bytes < n.toUInt8 :: bytes' := by
  rw [List.cons_lt_cons_iff]
  rcases Nat.lt_or_eq_of_le hle with hlt | heq
  · left
    rwa [UInt8.lt_iff_toNat_lt, toNat_byte (Nat.lt_trans hlt hbyte), toNat_byte hbyte]
  · exact .inr ⟨congrArg _ heq, h heq⟩

theorem first_byte_lt {m n : Nat} {bytes bytes' : List UInt8} (hlt : m < n) (hbyte : n < 256) :
    m.toUInt8 :: bytes < n.toUInt8 :: bytes' :=
  cons_byte_lt hbyte (Nat.le_of_lt hlt) fun heq => absurd heq (Nat.ne_of_lt hlt)

/-- The bytes of a character come before those of a greater one, whatever follows. -/
theorem encodeChar_append_lt {c d : Char} (h : c.toNat < d.toNat) (bytes bytes' : List UInt8) :
    encodeChar c ++ bytes < encodeChar d ++ bytes' := by
  have hmost := toNat_lt_of_char d
  unfold encodeChar
  dsimp only
  -- by the number of bytes of `c`, and within each case by that of `d`
  split
  · repeat' split
    all_goals exact first_byte_lt (by omega) (by omega)
  · split
    · split
      · omega
      · split
        · exact cons_byte_lt (by omega) (by omega) fun _ => first_byte_lt (by omega) (by omega)
        · split
          all_goals exact first_byte_lt (by omega) (by omega)
    · split
      · split
        · omega
        · split
          · omega
          · split
            · exact cons_byte_lt (by omega) (by omega) fun _ =>
                cons_byte_lt (by omega) (by omega) fun _ =>
                cons_byte_lt (by omega) (by omega) fun _ => by omega
            · exact first_byte_lt (by omega) (by omega)
      · rw [if_neg (by omega), if_neg (by omega), if_neg (by omega)]
        exact cons_byte_lt (by omega) (by omega) fun _ =>
          cons_byte_lt (by omega) (by omega) fun _ =>
          cons_byte_lt (by omega) (by omega) fun _ =>
          cons_byte_lt (by omega) (by omega) fun _ => by omega

theorem flatMap_encodeChar_lt {a b : List Char} (h : a < b) :
    a.flatMap encodeChar < b.flatMap encodeChar := by
  induction a generalizing b with
  | nil =>
    cases b with
    | nil => exact absurd h (List.lt_irrefl [])
    | cons d rest =>
      have hpos := length_encodeChar_pos d
      rw [List.flatMap_cons]
      cases hbytes : encodeChar d with
      | nil => rw [hbytes] at hpos; exact absurd hpos (Nat.lt_irrefl 0)
      | cons byte bytes => exact List.nil_lt_cons byte _
  | cons c a ih =>
    cases b with
    | nil => exact absurd h (List.not_lt_nil _)
    | cons d b =>
      rw [List.flatMap_cons, List.flatMap_cons]
      rcases List.cons_lt_cons_iff.1 h with hchar | ⟨rfl, hrest⟩
      · exact encodeChar_append_lt hchar _ _
      · exact List.append_left_lt (ih hrest)

/-- A text that comes before another has bytes that come before those of the other. -/
theorem encode_lt {a b : String} (h : a < b) : encode a < encode b := flatMap_encodeChar_lt h

end Rollout.Text
