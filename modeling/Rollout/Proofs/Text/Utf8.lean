import Rollout.Text.Utf8

/-!
# Reading UTF-8 back

`decode_encode` says that cutting the bytes of a text gives its characters.  The steps are the
continuation bytes, the head of each of the four lengths, and one character in front of others.
-/

namespace Rollout.Text

/-! ### Bytes of a character -/

theorem toNat_byte {n : Nat} (h : n < 256) : n.toUInt8.toNat = n := by
  rw [Nat.toUInt8, UInt8.toNat_ofNat']
  exact Nat.mod_eq_of_lt h

theorem continuation_byte {n : Nat} (h : n < 64) : continuation (0x80 + n).toUInt8 = some n := by
  have hbyte : (0x80 + n).toUInt8.toNat = 0x80 + n := toNat_byte (by omega)
  have hleast : (0x80 : UInt8) ≤ (0x80 + n).toUInt8 := by
    rw [UInt8.le_iff_toNat_le, hbyte]
    exact Nat.le_add_right _ _
  have hmost : (0x80 + n).toUInt8 < (0xc0 : UInt8) := by
    rw [UInt8.lt_iff_toNat_lt, hbyte]
    show 0x80 + n < 0xc0
    omega
  unfold continuation
  rw [decide_eq_true hleast, decide_eq_true hmost, hbyte]
  simp

theorem checkedChar_toNat {c : Char} {least size : Nat} (h : least ≤ c.toNat) :
    checkedChar least c.toNat size = some (c, size) := by
  unfold checkedChar
  rw [if_pos ⟨h, c.valid⟩, Char.ofNat_toNat]

theorem toNat_lt_of_char (c : Char) : c.toNat < 0x110000 := by
  have hvalid : c.toNat.isValidChar := c.valid
  rcases hvalid with h | h
  · omega
  · omega

/-! ### One character in front -/

section Head

variable {c : Char} (rest : List UInt8)

theorem decodeHead_one (h : c.toNat < 0x80) :
    decodeHead (c.toNat.toUInt8 :: rest) = some (c, 1) := by
  have hbyte := toNat_byte (n := c.toNat) (by omega)
  simp only [decodeHead]
  rw [hbyte, if_pos h, Char.ofNat_toNat]

theorem decodeHead_two (hleast : 0x80 ≤ c.toNat) (hmost : c.toNat < 0x800) :
    decodeHead ((0xc0 + c.toNat / 64).toUInt8 :: (0x80 + c.toNat % 64).toUInt8 :: rest) =
      some (c, 2) := by
  have hbyte := toNat_byte (n := 0xc0 + c.toNat / 64) (by omega)
  have hcode : (0xc0 + c.toNat / 64 - 0xc0) * 64 + c.toNat % 64 = c.toNat := by omega
  simp only [decodeHead]
  rw [hbyte, if_neg (by omega), if_neg (by omega), if_pos (by omega),
    continuation_byte (by omega)]
  simp only [Option.bind_eq_bind, Option.bind_some, hcode]
  exact checkedChar_toNat hleast

theorem decodeHead_three (hleast : 0x800 ≤ c.toNat) (hmost : c.toNat < 0x10000) :
    decodeHead ((0xe0 + c.toNat / 4096).toUInt8 :: (0x80 + c.toNat / 64 % 64).toUInt8 ::
      (0x80 + c.toNat % 64).toUInt8 :: rest) = some (c, 3) := by
  have hbyte := toNat_byte (n := 0xe0 + c.toNat / 4096) (by omega)
  have hcode : (0xe0 + c.toNat / 4096 - 0xe0) * 4096 + c.toNat / 64 % 64 * 64 + c.toNat % 64 =
      c.toNat := by omega
  simp only [decodeHead]
  rw [hbyte, if_neg (by omega), if_neg (by omega), if_neg (by omega), if_pos (by omega),
    continuation_byte (by omega), continuation_byte (by omega)]
  simp only [Option.bind_eq_bind, Option.bind_some, hcode]
  exact checkedChar_toNat hleast

theorem bind_three {β : Type} (f : Nat → Nat → Nat → Option β) (b d e : Nat) :
    (do f (← some b) (← some d) (← some e)) = f b d e := rfl

theorem decodeHead_four (hleast : 0x10000 ≤ c.toNat) :
    decodeHead ((0xf0 + c.toNat / 262144).toUInt8 :: (0x80 + c.toNat / 4096 % 64).toUInt8 ::
      (0x80 + c.toNat / 64 % 64).toUInt8 :: (0x80 + c.toNat % 64).toUInt8 :: rest) =
      some (c, 4) := by
  have hmost := toNat_lt_of_char c
  have hbyte := toNat_byte (n := 0xf0 + c.toNat / 262144) (by omega)
  have hcode : c.toNat / 262144 * 262144 + c.toNat / 4096 % 64 * 4096 + c.toNat / 64 % 64 * 64 +
      c.toNat % 64 = c.toNat := by omega
  simp only [decodeHead]
  rw [hbyte, if_neg (by omega), if_neg (by omega), if_neg (by omega), if_neg (by omega),
    continuation_byte (by omega), continuation_byte (by omega), continuation_byte (by omega),
    Nat.add_sub_cancel_left]
  -- the three values go in through `bind_three`: reducing the bind in place is slow to check
  refine (bind_three (fun b d e =>
    checkedChar 0x10000 (c.toNat / 262144 * 262144 + b * 4096 + d * 64 + e) 4) _ _ _).trans ?_
  rw [hcode]
  exact checkedChar_toNat hleast

theorem decodeHead_encodeChar (c : Char) :
    decodeHead (encodeChar c ++ rest) = some (c, (encodeChar c).length) := by
  unfold encodeChar
  dsimp only
  split
  · rename_i h
    exact decodeHead_one rest h
  · split
    · rename_i hleast hmost
      exact decodeHead_two rest (Nat.not_lt.1 hleast) hmost
    · split
      · rename_i hleast hmost
        exact decodeHead_three rest (Nat.not_lt.1 hleast) hmost
      · rename_i hleast
        exact decodeHead_four rest (Nat.not_lt.1 hleast)

end Head

/-! ### Whole texts -/

theorem length_encodeChar_pos (c : Char) : 0 < (encodeChar c).length := by
  unfold encodeChar
  dsimp only
  repeat' split
  all_goals exact Nat.succ_pos _

theorem decodeFrom_encodeChar (n : Nat) (c : Char) (rest : List UInt8) :
    decodeFrom (n + 1) (encodeChar c ++ rest) = some c :: decodeFrom n rest := by
  have hhead := decodeHead_encodeChar rest c
  cases hbytes : encodeChar c ++ rest with
  | nil =>
    have hpos := length_encodeChar_pos c
    rw [(List.append_eq_nil_iff.1 hbytes).1] at hpos
    exact absurd hpos (Nat.lt_irrefl 0)
  | cons b bytes =>
    have hdrop : (b :: bytes).drop (encodeChar c).length = rest := by
      rw [← hbytes, List.drop_left]
    rw [hbytes] at hhead
    simp only [decodeFrom, hhead, hdrop]

theorem decodeFrom_flatMap (chars : List Char) (n : Nat) (h : chars.length ≤ n) :
    decodeFrom n (chars.flatMap encodeChar) = chars.map some := by
  induction chars generalizing n with
  | nil => cases n <;> rfl
  | cons c chars ih =>
    obtain ⟨n, rfl⟩ : ∃ m, n = m + 1 := ⟨n - 1, by simp only [List.length_cons] at h; omega⟩
    rw [List.flatMap_cons, decodeFrom_encodeChar, List.map_cons,
      ih n (by simp only [List.length_cons] at h; omega)]

theorem length_le_flatMap (chars : List Char) :
    chars.length ≤ (chars.flatMap encodeChar).length := by
  induction chars with
  | nil => exact Nat.le_refl 0
  | cons c chars ih =>
    have hpos := length_encodeChar_pos c
    rw [List.flatMap_cons, List.length_append, List.length_cons]
    omega

/-- Cutting the bytes of a text gives its characters. -/
theorem decode_encode (text : String) : decode (encode text) = symbols text := by
  unfold decode encode symbols
  exact decodeFrom_flatMap _ _ (length_le_flatMap _)

end Rollout.Text
