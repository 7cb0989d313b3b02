/-!
# Instants and civil dates

An `Instant` is a point of universal time.  `dayNumber` and `dateOfDay` convert between dates of the
proleptic Gregorian calendar and days since 1 January 1970.
-/

namespace Rollout.Calendar

/-- A point of universal time.  Within a leap second the nanoseconds run on from 10⁹. -/
structure Instant where
  /-- Seconds since the start of 1970; a leap second counts as the second before it. -/
  seconds : Int
  nanos : Nat
  deriving DecidableEq, Repr

def Instant.epoch : Instant := ⟨0, 0⟩

instance : Inhabited Instant := ⟨Instant.epoch⟩

def Instant.millis (t : Instant) : Int := t.seconds * 1000 + t.nanos / 1000000

structure Date where
  year : Int
  month : Nat
  day : Nat
  deriving DecidableEq, Repr

def isLeapYear (year : Int) : Bool := year % 4 = 0 && (year % 100 ≠ 0 || year % 400 = 0)

def daysInMonth (year : Int) (month : Nat) : Nat :=
  if month = 2 then (if isLeapYear year then 29 else 28)
  else if month = 4 || month = 6 || month = 9 || month = 11 then 30
  else 31

/-- The days from 1 January 1970 to a date.  Years are counted from March, so that the leap day is
the last day of its year. -/
def dayNumber (date : Date) : Int :=
  let year := if date.month ≤ 2 then date.year - 1 else date.year
  let month := (date.month + 9) % 12
  let era := year / 400
  let yearOfEra := year % 400
  let dayOfYear : Int := (153 * month + 2) / 5 + date.day - 1
  era * 146097 + yearOfEra * 365 + yearOfEra / 4 - yearOfEra / 100 + dayOfYear - 719468

def dateOfDay (day : Int) : Date :=
  let shifted := day + 719468
  let era := shifted / 146097
  let dayOfEra := shifted % 146097
  let yearOfEra := (dayOfEra - dayOfEra / 1460 + dayOfEra / 36524 - dayOfEra / 146096) / 365
  let dayOfYear := dayOfEra - (365 * yearOfEra + yearOfEra / 4 - yearOfEra / 100)
  let monthIndex := (5 * dayOfYear + 2) / 153
  let month := ((monthIndex + 2) % 12 + 1).toNat
  let year := era * 400 + yearOfEra + (if month ≤ 2 then 1 else 0)
  ⟨year, month, (dayOfYear - (153 * monthIndex + 2) / 5 + 1).toNat⟩

end Rollout.Calendar
