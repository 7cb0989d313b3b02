import Rollout.Calendar.Instant
import Rollout.Text.Blank

/-!
# Times in RFC 3339 form

`Instant.render` writes an instant in universal time with as many groups of three fraction digits as
it needs.  `Instant.parse` reads that form and a looser one: white space may stand between the
parts, the date and the time may be separated by `T`, `t` or a blank, and any offset of less than a
day is taken into account.
-/

namespace Rollout.Calendar

/-! ### Writing -/

def padded (width n : Nat) : String :=
  let digits := toString n
  "".pushn '0' (width - digits.length) ++ digits

/-- The year: four digits, or a sign and at least four digits outside 0 to 9999. -/
def renderYear (year : Int) : String :=
  if 0 ≤ year && year ≤ 9999 then padded 4 year.toNat
  else (if year < 0 then "-" else "+") ++ padded 4 year.natAbs

/-- The fraction of a second in the fewest groups of three digits. -/
def renderFraction (nanos : Nat) : String :=
  if nanos = 0 then ""
  else if nanos % 1000000 = 0 then "." ++ padded 3 (nanos / 1000000)
  else if nanos % 1000 = 0 then "." ++ padded 6 (nanos / 1000)
  else "." ++ padded 9 nanos

def Instant.render (t : Instant) : String :=
  let date := dateOfDay (t.seconds / 86400)
  let second := (t.seconds % 86400).toNat
  let leap := t.nanos / 1000000000
  renderYear date.year ++ "-" ++ padded 2 date.month ++ "-" ++ padded 2 date.day ++ "T" ++
    padded 2 (second / 3600) ++ ":" ++ padded 2 (second / 60 % 60) ++ ":" ++
    padded 2 (second % 60 + leap) ++ renderFraction (t.nanos % 1000000000) ++ "Z"

/-! ### Reading -/

inductive TimeError where
  | outOfRange
  | impossible
  | notEnough
  | invalid
  | tooShort
  | tooLong
  deriving DecidableEq, Repr

def TimeError.message : TimeError → String
  | outOfRange => "input is out of range"
  | impossible => "no possible date and time matching input"
  | notEnough => "input is not enough for unique date and time"
  | invalid => "input contains invalid characters"
  | tooShort => "premature end of input"
  | tooLong => "trailing input"

def takeDigits (value : Nat) : Nat → List Char → Nat × List Char
  | limit + 1, c :: rest =>
    if c.isDigit then takeDigits (value * 10 + (c.toNat - '0'.toNat)) limit rest
    else (value, c :: rest)
  | _, text => (value, text)

/-- Reads a number of one digit up to `limit` digits, which must fit 63 bits. -/
def readDigits (limit : Nat) (text : List Char) : Except TimeError (Nat × List Char) :=
  match text with
  | [] => .error .tooShort
  | c :: _ =>
    if c.isDigit then
      let (value, rest) := takeDigits 0 limit text
      if (value : Int) ≤ Int64.maxValue.toInt then .ok (value, rest) else .error .outOfRange
    else .error .invalid

/-- Reads a year: four digits, or a sign and any number of digits. -/
def readYear (text : List Char) : Except TimeError (Int × List Char) := do
  let (year, rest) ←
    match Text.dropSpace text with
    | '-' :: digits => do
      let (n, rest) ← readDigits digits.length digits
      pure (-(n : Int), rest)
    | '+' :: digits => do
      let (n, rest) ← readDigits digits.length digits
      pure ((n : Int), rest)
    | digits => do
      let (n, rest) ← readDigits 4 digits
      pure ((n : Int), rest)
  if -2147483648 ≤ year && year ≤ 2147483647 then return (year, rest) else .error .outOfRange

/-- Reads a field of one or two digits within bounds, after white space. -/
def readField (least greatest : Nat) (text : List Char) : Except TimeError (Nat × List Char) := do
  let (n, rest) ← readDigits 2 (Text.dropSpace text)
  if least ≤ n && n ≤ greatest then return (n, rest) else .error .outOfRange

def readMark (mark : Char) (text : List Char) : Except TimeError (List Char) :=
  match Text.dropSpace text with
  | [] => .error .tooShort
  | c :: rest => if c = mark then .ok rest else .error .invalid

/-- Reads an optional fraction of a second as nanoseconds; digits after the ninth are skipped. -/
def readFraction : List Char → Except TimeError (Nat × List Char)
  | '.' :: text => do
    let (n, rest) ← readDigits 9 text
    let count := text.length - rest.length
    return (n * Nat.pow 10 (9 - count), rest.dropWhile Char.isDigit)
  | text => .ok (0, text)

def byteCount (text : List Char) : Nat := text.foldl (fun n c => n + c.utf8Size) 0

def readPair (highest : Char) (text : List Char) : Except TimeError (Nat × List Char) :=
  match text with
  | a :: b :: rest =>
    if a.isDigit && b.isDigit then
      if a ≤ highest then .ok ((a.toNat - '0'.toNat) * 10 + (b.toNat - '0'.toNat), rest)
      else .error .outOfRange
    else .error .invalid
  | _ => if 2 ≤ byteCount text then .error .invalid else .error .tooShort

/-- Reads an offset that is written with a sign, hours and minutes, in seconds. -/
def readSignedOffset (text : List Char) : Except TimeError (Int × List Char) := do
  let (sign, text) ←
    match text with
    | '+' :: rest => pure ((1 : Int), rest)
    | '-' :: rest | '−' :: rest => pure ((-1 : Int), rest)
    | _ :: _ => .error .invalid
    | [] => .error .tooShort
  let (hours, text) ← readPair '9' text
  let (minutes, text) ← readPair '5' (text.dropWhile fun c => c = ':' || Text.isSpace c)
  return (sign * (hours * 3600 + minutes * 60), text)

def readOffset (text : List Char) : Except TimeError (Int × List Char) :=
  match Text.dropSpace text with
  | 'Z' :: rest | 'z' :: rest => .ok (0, rest)
  | a :: b :: c :: rest =>
    if a.toLower = 'u' && b.toLower = 't' && c.toLower = 'c' then .ok (0, rest)
    else readSignedOffset (a :: b :: c :: rest)
  | other => readSignedOffset other

def readSeparator : List Char → Except TimeError (List Char)
  | [] => .error .tooShort
  | c :: rest => if c = 'T' || c = 't' || c = ' ' then .ok rest else .error .invalid

def Instant.ofChars (text : List Char) : Except TimeError Instant := do
  let (year, text) ← readYear text
  let text ← readMark '-' text
  let (month, text) ← readField 1 12 text
  let text ← readMark '-' text
  let (day, text) ← readField 1 31 text
  if text.isEmpty then .error .notEnough
  let text ← readSeparator text
  let (hour, text) ← readField 0 23 text
  let text ← readMark ':' text
  let (minute, text) ← readField 0 59 text
  let text ← readMark ':' text
  let (second, text) ← readField 0 60 text
  let (fraction, text) ← readFraction text
  let text := Text.dropSpace text
  if text.isEmpty then .error .notEnough
  let (offset, text) ← readOffset text
  if !(Text.dropSpace text).isEmpty then .error .tooLong
  if year < -262143 || 262142 < year || daysInMonth year month < day then .error .outOfRange
  if offset ≤ -86400 || 86400 ≤ offset then .error .outOfRange
  let date : Date := ⟨year, month, day⟩
  let leap := if second = 60 then 1 else 0
  let seconds := dayNumber date * 86400 + hour * 3600 + minute * 60 + (second - leap : Nat) - offset
  let universal := dateOfDay (seconds / 86400)
  if universal.year < -262143 || 262142 < universal.year then .error .impossible
  return ⟨seconds, fraction + leap * 1000000000⟩

def Instant.parse (text : String) : Except TimeError Instant := Instant.ofChars text.toList

end Rollout.Calendar
