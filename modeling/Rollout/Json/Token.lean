import Rollout.Json.Cursor
import Rollout.Json.Tree

/-!
# Words, strings and numbers of JSON text

Readers for the three kinds of tokens that are longer than a character.  Each starts where its first
character has been recognised, and each comes in a form that delivers the value and, for strings and
numbers, in a form that only passes over the token and checks less.
-/

namespace Rollout.Json

open Text (Symbol)

/-! ### Words -/

def readWord : List Char → Cursor → Except Error Cursor
  | [], c => .ok c
  | letter :: word, c =>
    match c.rest with
    | [] => c.fail .endInValue
    | s :: _ => if s = some letter then readWord word c.advance else c.failNext .expectedIdent

/-! ### Strings -/

def hexValue (s : Symbol) : Option Nat :=
  match s with
  | none => none
  | some c =>
    if c.isDigit then some (c.toNat - '0'.toNat)
    else if 'a' ≤ c ∧ c ≤ 'f' then some (c.toNat - 'a'.toNat + 10)
    else if 'A' ≤ c ∧ c ≤ 'F' then some (c.toNat - 'A'.toNat + 10)
    else none

/-- The place after a number of bytes, which may end inside a symbol. -/
def skipBytesFrom (line column : Nat) : Nat → List Symbol → Cursor
  | _, [] => ⟨[], line, column⟩
  | 0, rest => ⟨rest, line, column⟩
  | n + 1, s :: rest =>
    if s = some '\n' then skipBytesFrom (line + 1) 0 n rest
    else if Text.width s ≤ n + 1 then
      skipBytesFrom line (column + Text.width s) (n + 1 - Text.width s) rest
    else ⟨rest, line, column + (n + 1)⟩

def Cursor.skipBytes (n : Nat) (c : Cursor) : Cursor := skipBytesFrom c.line c.column n c.rest

def byteCount (text : List Symbol) : Nat := text.foldl (fun n s => n + Text.width s) 0

def readHex (c : Cursor) : Outcome Nat :=
  match c.rest with
  | s₁ :: s₂ :: s₃ :: s₄ :: rest =>
    match hexValue s₁, hexValue s₂, hexValue s₃, hexValue s₄ with
    | some a, some b, some d, some e =>
      .ok (((a * 16 + b) * 16 + d) * 16 + e, ⟨rest, c.line, c.column + 4⟩)
    | _, _, _, _ => (c.skipBytes 4).fail .invalidEscape
  | _ =>
    if 4 ≤ byteCount c.rest then (c.skipBytes 4).fail .invalidEscape
    else (c.skipBytes 4).fail .endInString

def expectInPair (expected : Char) (c : Cursor) : Except Error Cursor :=
  match c.rest with
  | [] => c.fail .endInString
  | s :: _ => if s = some expected then .ok c.advance else c.failNext .unfinishedPair

/-- Reads an escape by code: one 16-bit unit, or two that form a pair. -/
def readCodeEscape (c : Cursor) : Except Error (Char × Cursor) := do
  let (unit, c) ← readHex c
  if 0xdc00 ≤ unit && unit ≤ 0xdfff then c.fail .loneSurrogate
  else if unit < 0xd800 || 0xdbff < unit then return (Char.ofNat unit, c)
  else
    let c ← expectInPair '\\' c
    let c ← expectInPair 'u' c
    let (low, c) ← readHex c
    if low < 0xdc00 || 0xdfff < low then c.fail .loneSurrogate
    else return (Char.ofNat (0x10000 + (unit - 0xd800) * 0x400 + (low - 0xdc00)), c)

def simpleEscape (c : Char) : Option Char :=
  if c = '"' then some '"'
  else if c = '\\' then some '\\'
  else if c = '/' then some '/'
  else if c = 'b' then some '\x08'
  else if c = 'f' then some '\x0c'
  else if c = 'n' then some '\n'
  else if c = 'r' then some '\r'
  else if c = 't' then some '\t'
  else none

def readEscape (c : Cursor) : Outcome Char :=
  match c.rest with
  | [] => c.fail .endInString
  | s :: _ =>
    if s = some 'u' then readCodeEscape c.advance
    else
      match s.bind simpleEscape with
      | some value => .ok (value, c.advance)
      | none => c.failNext .invalidEscape

/-- Reads the rest of a string: `done` holds its characters so far, last first, and `stray` tells
whether it has bytes that belong to no character.  The first argument bounds the length. -/
def readStringFrom : Nat → List Char → Bool → Cursor → Outcome String
  | 0, _, _, c => c.fail .endInString
  | n + 1, done, stray, c =>
    match c.rest with
    | [] => c.fail .endInString
    | none :: _ => readStringFrom n done true c.advance
    | some x :: _ =>
      if x = '"' then
        if stray then c.fail .invalidCodePoint else .ok (String.ofList done.reverse, c.advance)
      else if x = '\\' then
        match readEscape c.advance with
        | .error e => .error e
        | .ok (y, c) => readStringFrom n (y :: done) stray c
      else if x.toNat < 0x20 then c.advance.fail .controlCharacter
      else readStringFrom n (x :: done) stray c.advance

def readString (c : Cursor) : Outcome String := readStringFrom (c.rest.length + 1) [] false c

def skipEscape (c : Cursor) : Except Error Cursor :=
  match c.rest with
  | [] => c.fail .endInString
  | s :: _ =>
    if s = some 'u' then (readHex c.advance).map (·.2)
    else
      match s.bind simpleEscape with
      | some _ => .ok c.advance
      | none => c.failNext .invalidEscape

def skipStringFrom : Nat → Cursor → Except Error Cursor
  | 0, c => c.fail .endInString
  | n + 1, c =>
    match c.rest with
    | [] => c.fail .endInString
    | s :: _ =>
      if s = some '"' then .ok c.advance
      else if s = some '\\' then
        match skipEscape c.advance with
        | .error e => .error e
        | .ok c => skipStringFrom n c
      else if s.any fun x => x.toNat < 0x20 then c.fail .controlCharacter
      else skipStringFrom n c.advance

def skipString (c : Cursor) : Except Error Cursor := skipStringFrom (c.rest.length + 1) c

/-! ### Numbers -/

def digit? (s : Symbol) : Option Nat :=
  match s with
  | some c => if c.isDigit then some (c.toNat - '0'.toNat) else none
  | none => none

/-- Reads the digits at the front of a line of text: their values and what follows. -/
def takeDigits : List Symbol → List Nat × List Symbol
  | [] => ([], [])
  | s :: rest =>
    match digit? s with
    | some d =>
      let (digits, rest) := takeDigits rest
      (d :: digits, rest)
    | none => ([], s :: rest)

def readDigits (c : Cursor) : List Nat × Cursor :=
  let (digits, rest) := takeDigits c.rest
  (digits, ⟨rest, c.line, c.column + digits.length⟩)

/-- Appends digits to a 64-bit number as long as it fits; also the number of digits used. -/
def absorb (value : Nat) : List Nat → Nat × Nat
  | [] => (value, 0)
  | d :: rest =>
    if value * 10 + d < UInt64.size then
      let (value, used) := absorb (value * 10 + d) rest
      (value, used + 1)
    else (value, 0)

def ofDigits (digits : List Nat) : Nat := digits.foldl (fun n d => n * 10 + d) 0

def powerOfTen (n : Nat) : Float := Float.ofScientific 1 false n

/-- The double nearest to `value · 10 ^ exponent` that two roundings give: one of the 64-bit number
and one of the product or quotient with the power of ten.  Large negative exponents are worked off
in steps of 308.  There is none if the result is too large. -/
def scaleFloat : Nat → Float → Int → Option Float
  | steps, value, exponent =>
    if exponent.natAbs ≤ 308 then
      if 0 ≤ exponent then
        let product := value * powerOfTen exponent.natAbs
        if product.isInf then none else some product
      else some (value / powerOfTen exponent.natAbs)
    else if value == 0 then some value
    else if 0 ≤ exponent then none
    else
      match steps with
      | 0 => some 0
      | steps + 1 => scaleFloat steps (value / powerOfTen 308) (exponent + 308)

def finishFloat (negative : Bool) (value : Nat) (exponent : Int) (c : Cursor) :
    Outcome Number :=
  match scaleFloat 4 value.toUInt64.toFloat exponent with
  | none => c.fail .numberOutOfRange
  | some x => .ok (.float (if negative then -x else x), c)

def readExponent (negative : Bool) (value : Nat) (exponent : Int) (c : Cursor) :
    Outcome Number :=
  let c := c.advance
  let (down, c) :=
    if c.nextChar? = some '+' then (false, c.advance)
    else if c.nextChar? = some '-' then (true, c.advance)
    else (false, c)
  match c.rest with
  | [] => c.fail .endInValue
  | s :: _ =>
    match digit? s with
    | none => c.failNext .invalidNumber
    | some _ =>
      let (digits, stop) := readDigits c
      -- the number of digits after which the exponent leaves 31 bits, if it does
      let tooLong := (List.range digits.length).find? fun i =>
        Int32.maxValue.toInt < ofDigits (digits.take (i + 1))
      match tooLong with
      | some i =>
        if value ≠ 0 && !down then
          Cursor.fail ⟨c.rest, c.line, c.column + (i + 1)⟩ .numberOutOfRange
        else .ok (.float (if negative then -0.0 else 0.0), stop)
      | none =>
        let size : Int := ofDigits digits
        let total := if down then exponent - size else exponent + size
        let bounded := max Int32.minValue.toInt (min Int32.maxValue.toInt total)
        finishFloat negative value bounded stop

/-- Reads the exponent of a number, if there is one, and finishes it. -/
def readScale (negative : Bool) (value : Nat) (exponent : Int) (c : Cursor) : Outcome Number :=
  if c.nextChar? = some 'e' || c.nextChar? = some 'E' then
    readExponent negative value exponent c
  else finishFloat negative value exponent c

/-- Reads a fraction, at its point.  Digits that no longer fit 64 bits are passed over. -/
def readFraction (negative : Bool) (value : Nat) (exponent : Int) (c : Cursor) : Outcome Number :=
  let (digits, c) := readDigits c.advance
  if digits.isEmpty then
    if c.rest.isEmpty then c.fail .endInValue else c.failNext .invalidNumber
  else
    let (value, used) := absorb value digits
    readScale negative value (exponent - used) c

/-- The value of an integer literal.  Minus zero and integers below -2⁶³ are doubles. -/
def integerValue (negative : Bool) (value : Nat) : Number :=
  if negative then
    if 0 < value ∧ Int64.minValue.toInt ≤ -(value : Int) then .int (-value)
    else .float (-value.toUInt64.toFloat)
  else .int value

def readNumber (negative : Bool) (c : Cursor) : Outcome Number :=
  match c.rest with
  | [] => c.fail .endInValue
  | s :: _ =>
    match digit? s with
    | none => c.failNext .invalidNumber
    | some first =>
      let (digits, stop) := if first = 0 then ([0], c.advance) else readDigits c
      if first = 0 && (stop.rest.head?.bind digit?).isSome then stop.failNext .invalidNumber
      else
        let (value, used) := absorb 0 digits
        let dropped := digits.length - used
        if stop.nextChar? = some '.' then readFraction negative value dropped stop
        else if stop.nextChar? = some 'e' || stop.nextChar? = some 'E' then
          readExponent negative value dropped stop
        else if dropped = 0 then .ok (integerValue negative value, stop)
        else finishFloat negative value dropped stop

def skipExponent (c : Cursor) : Except Error Cursor :=
  let c := c.advance
  let c := if c.nextChar? = some '+' || c.nextChar? = some '-' then c.advance else c
  let (digits, stop) := readDigits c
  if digits.isEmpty then c.failNext .invalidNumber else .ok stop

def skipScale (c : Cursor) : Except Error Cursor :=
  if c.nextChar? = some 'e' || c.nextChar? = some 'E' then skipExponent c else .ok c

def skipNumber (c : Cursor) : Except Error Cursor :=
  match c.rest.head?.bind digit? with
  | none => c.failNext .invalidNumber
  | some first =>
    let stop := if first = 0 then c.advance else (readDigits c).2
    if first = 0 && (stop.rest.head?.bind digit?).isSome then stop.failNext .invalidNumber
    else if stop.nextChar? = some '.' then
      let (digits, stop) := readDigits stop.advance
      if digits.isEmpty then stop.failNext .invalidNumber else skipScale stop
    else skipScale stop

end Rollout.Json
