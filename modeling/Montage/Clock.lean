import Montage.Decimal.Fixed
import Montage.Number

/-!
# Points in time

Time is counted in seconds from the moment the program starts, and a point in time is that
count to the microsecond, together with the date of the start. Dates are those of the Gregorian
calendar, in UTC.
-/
namespace Montage

/-- A point in time, in microseconds since the start. -/
structure Instant where
  micros : Int
deriving DecidableEq, Repr

namespace Instant

/-- The point in time after some seconds: whole seconds are exact, the rest is rounded to the
nearest microsecond, a half to the even one. -/
def ofSeconds (seconds : Float) : Instant :=
  match Dyadic.ofFloat? seconds with
  | none => ⟨0⟩
  | some d =>
    let whole := d.truncate
    let rest := seconds - Float.ofInt whole
    match Dyadic.ofFloat? (rest * 1000000) with
    | some r => ⟨whole * 1000000 + r.nearest⟩
    | none => ⟨whole * 1000000⟩

/-- A date and a time of day. -/
structure Calendar where
  year : Int
  month : Nat
  day : Nat
  hour : Nat
  minute : Nat
  second : Nat
  micros : Nat

/-- Year, month and day of a day, counted from 1970-01-01. The year is taken to begin in March,
so that the day which leap years add is its last. -/
def civil (days : Int) : Int × Nat × Nat :=
  let z := days + 719468
  let era := Int.fdiv z 146097
  let dayOfEra := (z - era * 146097).toNat
  let yearOfEra := (dayOfEra - dayOfEra / 1460 + dayOfEra / 36524 - dayOfEra / 146096) / 365
  let dayOfYear := dayOfEra - (365 * yearOfEra + yearOfEra / 4 - yearOfEra / 100)
  let shifted := (5 * dayOfYear + 2) / 153
  let day := dayOfYear - (153 * shifted + 2) / 5 + 1
  let month := if shifted < 10 then shifted + 3 else shifted - 9
  (yearOfEra + era * 400 + (if month ≤ 2 then 1 else 0), month, day)

/-- The start of the program, 2024-01-02 03:04:05, in seconds since 1970. -/
def startSeconds : Int := 1704164645

/-- The date and the time of day. -/
def calendar (t : Instant) : Calendar :=
  let seconds := startSeconds + Int.fdiv t.micros 1000000
  let days := Int.fdiv seconds 86400
  let ofDay := (seconds - days * 86400).toNat
  let (year, month, day) := civil days
  { year, month, day
    hour := ofDay / 3600
    minute := ofDay / 60 % 60
    second := ofDay % 60
    micros := (Int.fmod t.micros 1000000).toNat }

/-- A number with at least two digits. -/
def two (n : Nat) : String := Decimal.padZeros 2 (toString n)

/-- The year with at least four digits. -/
def four (n : Int) : String := Decimal.padZeros 4 (toString n)

/-- The date and the time of day, with six places of the second unless they are zero. -/
def dateTime (t : Instant) : String :=
  let c := t.calendar
  let places := if c.micros = 0 then "" else "." ++ Decimal.padZeros 6 (toString c.micros)
  four c.year ++ "-" ++ two c.month ++ "-" ++ two c.day ++ "T" ++ two c.hour ++ ":" ++
    two c.minute ++ ":" ++ two c.second ++ places

/-- The text of a point in time in records. -/
def recordText (t : Instant) : String := t.dateTime ++ "Z"

/-- The text of a point in time in events. -/
def eventText (t : Instant) : String := t.dateTime ++ "+00:00"

/-- The text of a point in time in the names of files. -/
def fileText (t : Instant) : String :=
  let c := t.calendar
  four c.year ++ two c.month ++ two c.day ++ two c.hour ++ two c.minute ++ two c.second

end Instant
end Montage
