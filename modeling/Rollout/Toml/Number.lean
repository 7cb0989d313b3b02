import Rollout.Calendar.Instant
import Rollout.Toml.Scan

/-!
# Numbers and times of TOML text

A value that starts with a digit or a sign is a date or time, a decimal number or an integer, and is
tried in this order.  A reader that delivers nothing leaves the text to the next one; once a reader
has seen enough to be responsible, it stops at what it cannot read.
-/

namespace Rollout.Toml

/-! ### Times -/

def readFixed? (count least greatest : Nat) (text : List Char) : Option (Nat × List Char) :=
  let digits := text.take count
  let value := digits.foldl (fun n d => n * 10 + (d.toNat - '0'.toNat)) 0
  if digits.length = count && digits.all Char.isDigit && least ≤ value && value ≤ greatest then
    some (value, text.drop count)
  else none

/-- Reads a number of exactly so many digits within bounds, or stops. -/
def readFixed (count least greatest : Nat) (text : List Char) :
    Except Stop (Nat × List Char) :=
  match readFixed? count least greatest text with
  | some r => .ok r
  | none => stopAt text

def passChar (expected : Char) (text : List Char) : Except Stop (List Char) :=
  if text.head? = some expected then .ok text.tail else stopAt text

def passFraction (text : List Char) : List Char :=
  match text with
  | '.' :: d :: rest => if d.isDigit then rest.dropWhile Char.isDigit else text
  | _ => text

def tryTime (text : List Char) : Except Stop (Option (Unit × List Char)) :=
  match readFixed? 2 0 23 text with
  | none => .ok none
  | some (_, rest) =>
    if rest.head? ≠ some ':' then .ok none
    else do
      let (_, rest) ← readFixed 2 0 59 rest.tail
      let rest ← passChar ':' rest
      let (_, rest) ← readFixed 2 0 60 rest
      return some ((), passFraction rest)

def passOffset (text : List Char) : Except Stop (List Char) :=
  match text with
  | [] => .ok []
  | c :: rest =>
    if c = 'Z' || c = 'z' then .ok rest
    else if c = '+' || c = '-' then do
      let (_, rest) ← readFixed 2 0 23 rest
      let rest ← passChar ':' rest
      let (_, rest) ← readFixed 2 0 59 rest
      return rest
    else .ok (c :: rest)

/-- Passes a date, with the time and the offset that may follow it. -/
def tryDate (text : List Char) : Except Stop (Option (Unit × List Char)) :=
  match readFixed? 4 0 9999 text with
  | none => .ok none
  | some (year, rest) =>
    if rest.head? ≠ some '-' then .ok none
    else do
      let (month, rest) ← readFixed 2 1 12 rest.tail
      let rest ← passChar '-' rest
      let (_, rest) ← readFixed 2 1 (Calendar.daysInMonth year month) rest
      match rest with
      | [] => return some ((), [])
      | c :: after =>
        if c = 'T' || c = 't' || c = ' ' then
          match ← tryTime after with
          | some (_, after) => return some ((), ← passOffset after)
          | none => return some ((), rest)
        else return some ((), rest)

/-! ### Numbers -/

/-- Reads further digits; an underscore may stand between two of them. -/
def moreDigits (isDigit : Char → Bool) : List Char → Except Stop (List Char × List Char)
  | [] => .ok ([], [])
  | c :: rest =>
    if isDigit c then (moreDigits isDigit rest).map fun r => (c :: r.1, r.2)
    else if c = '_' then
      match rest with
      | d :: rest =>
        if isDigit d then (moreDigits isDigit rest).map fun r => (d :: r.1, r.2)
        else stopAt (d :: rest)
      | [] => stopAt []
    else .ok ([], c :: rest)

def readDigits (isDigit : Char → Bool) (text : List Char) : Except Stop (List Char × List Char) :=
  if text.head?.any isDigit then moreDigits isDigit text else stopAt text

/-- A sign, if there is one, and what follows: whether it is a minus sign. -/
def splitSign (text : List Char) : Bool × List Char :=
  match text with
  | [] => (false, [])
  | c :: rest => if c = '-' then (true, rest) else if c = '+' then (false, rest) else (false, text)

/-- Reads the digits of a decimal integer; a leading zero stands alone. -/
def tryDigits (text : List Char) : Except Stop (Option (List Char × List Char)) :=
  match text with
  | [] => .ok none
  | c :: rest =>
    if c = '0' then .ok (some (['0'], rest))
    else if c.isDigit then (moreDigits Char.isDigit text).map some
    else .ok none

def ofDigits (base : Nat) (digits : List Char) : Nat :=
  digits.foldl
    (fun n d => n * base +
      (if d.isDigit then d.toNat - '0'.toNat else d.toLower.toNat - 'a'.toNat + 10)) 0

/-- The double nearest to `digits · 10 ^ exponent`.  Beyond the bounds of doubles the exponent does
not matter. -/
def nearest (digits : List Char) (exponent : Int) : Float :=
  let least : Int := -(digits.length + 400)
  let e := max least (min 400 exponent)
  Float.ofScientific (ofDigits 10 digits) (e < 0) e.natAbs

def tryExponent (text : List Char) : Except Stop (Option (Int × List Char)) :=
  match text with
  | [] => .ok none
  | c :: rest =>
    if c = 'e' || c = 'E' then do
      let (negative, rest) := splitSign rest
      let (digits, rest) ← readDigits Char.isDigit rest
      let size : Int := ofDigits 10 digits
      return some (if negative then -size else size, rest)
    else .ok none

def finishDecimal (start : List Char) (negative : Bool) (digits : List Char) (exponent : Int)
    (rest : List Char) : Except Stop (Option (Float × List Char)) :=
  let x := nearest digits exponent
  if x.isInf && !negative then stopAt start else .ok (some (if negative then -x else x, rest))

def tryDecimal (text : List Char) : Except Stop (Option (Float × List Char)) := do
  let (negative, rest) := splitSign text
  match ← tryDigits rest with
  | none => return none
  | some (whole, rest) =>
    if rest.head? = some '.' then do
      let (fraction, rest) ← readDigits Char.isDigit rest.tail
      let shift : Int := -fraction.length
      match ← tryExponent rest with
      | some (e, rest) => finishDecimal text negative (whole ++ fraction) (e + shift) rest
      | none => finishDecimal text negative (whole ++ fraction) shift rest
    else
      match ← tryExponent rest with
      | some (e, rest) => finishDecimal text negative whole e rest
      | none => return none

def trySpecial (text : List Char) : Option (Float × List Char) :=
  let (negative, rest) := splitSign text
  if rest.take 3 = ['i', 'n', 'f'] then
    some (if negative then -(1.0 / 0.0) else 1.0 / 0.0, rest.drop 3)
  else if rest.take 3 = ['n', 'a', 'n'] then some (0.0 / 0.0, rest.drop 3)
  else none

def finishInteger (start : List Char) (n : Int) (rest : List Char) :
    Except Stop (Int × List Char) :=
  if Int64.minValue.toInt ≤ n ∧ n ≤ Int64.maxValue.toInt then .ok (n, rest) else stopAt start

def isDigitOf (base : Nat) (c : Char) : Bool :=
  (c.isDigit && c.toNat - '0'.toNat < base) ||
    (base = 16 && ('a' ≤ c.toLower ∧ c.toLower ≤ 'f'))

def readInteger (text : List Char) : Except Stop (Int × List Char) :=
  let based (base : Nat) : Except Stop (Int × List Char) := do
    let (digits, rest) ← readDigits (isDigitOf base) (text.drop 2)
    finishInteger text (ofDigits base digits) rest
  if text.take 2 = ['0', 'x'] then based 16
  else if text.take 2 = ['0', 'o'] then based 8
  else if text.take 2 = ['0', 'b'] then based 2
  else do
    let (negative, rest) := splitSign text
    match ← tryDigits rest with
    | none => stopAt rest
    | some (digits, rest) =>
      let size : Int := ofDigits 10 digits
      finishInteger text (if negative then -size else size) rest

end Rollout.Toml
