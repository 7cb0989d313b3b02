/-!
# UTF-8

`encode` writes characters as bytes and `decode` cuts bytes into characters.  A byte that belongs to
no character is kept in place as `none`, so decoding never fails and every position of the bytes is
still a position of the result (`width`).
-/

namespace Rollout.Text

/-- A character, or one byte that belongs to no character. -/
abbrev Symbol := Option Char

def encodeChar (c : Char) : List UInt8 :=
  let n := c.toNat
  if n < 0x80 then [n.toUInt8]
  else if n < 0x800 then [(0xc0 + n / 64).toUInt8, (0x80 + n % 64).toUInt8]
  else if n < 0x10000 then
    [(0xe0 + n / 4096).toUInt8, (0x80 + n / 64 % 64).toUInt8, (0x80 + n % 64).toUInt8]
  else
    [(0xf0 + n / 262144).toUInt8, (0x80 + n / 4096 % 64).toUInt8, (0x80 + n / 64 % 64).toUInt8,
      (0x80 + n % 64).toUInt8]

def encode (text : String) : List UInt8 := text.toList.flatMap encodeChar

def continuation (b : UInt8) : Option Nat :=
  if 0x80 ≤ b && b < 0xc0 then some (b.toNat - 0x80) else none

/-- A code point as a character with the number of bytes that it took, unless there is a shorter
form of it or it is no character. -/
def checkedChar (least code size : Nat) : Option (Char × Nat) :=
  if least ≤ code ∧ code.isValidChar then some (Char.ofNat code, size) else none

/-- The character at the front of a sequence of bytes, with the number of its bytes. -/
def decodeHead : List UInt8 → Option (Char × Nat)
  | [] => none
  | a :: rest =>
    let n := a.toNat
    if n < 0x80 then some (Char.ofNat n, 1)
    else if n < 0xc0 then none
    else if n < 0xe0 then
      match rest with
      | b :: _ => do checkedChar 0x80 ((n - 0xc0) * 64 + (← continuation b)) 2
      | _ => none
    else if n < 0xf0 then
      match rest with
      | b :: c :: _ => do
        checkedChar 0x800 ((n - 0xe0) * 4096 + (← continuation b) * 64 + (← continuation c)) 3
      | _ => none
    else
      match rest with
      | b :: c :: d :: _ => do
        checkedChar 0x10000 ((n - 0xf0) * 262144 + (← continuation b) * 4096 +
          (← continuation c) * 64 + (← continuation d)) 4
      | _ => none

def decodeFrom : Nat → List UInt8 → List Symbol
  | 0, _ => []
  | _, [] => []
  | n + 1, b :: rest =>
    match decodeHead (b :: rest) with
    | some (c, size) => some c :: decodeFrom n ((b :: rest).drop size)
    | none => none :: decodeFrom n rest

def decode (bytes : List UInt8) : List Symbol := decodeFrom bytes.length bytes

/-- The text of a sequence of bytes, if every byte belongs to a character. -/
def decode? (bytes : List UInt8) : Option String :=
  ((decode bytes).mapM id).map String.ofList

def width : Symbol → Nat
  | some c => c.utf8Size
  | none => 1

def symbols (text : String) : List Symbol := text.toList.map some

end Rollout.Text
