import BenchHistory.Decimal.Basic

/-!
# Points in time

Times count milliseconds since the start of 1970. They are written as dates of the
Gregorian calendar, extended to all years, while the year has at most six digits
and the time is in the range of the calendar.
-/

namespace BenchHistory.Calendar

/-- A time of day on a date. -/
structure Moment where
  year : Int
  month : Nat
  day : Nat
  hour : Nat
  minute : Nat
  second : Nat
  milli : Nat
deriving DecidableEq, Repr

/--
Year, month and day of a day counted from the start of 1970. Counting starts in
March, so that the leap day ends a year, and goes by eras of 400 years.
-/
def civil (days : Int) : Int × Nat × Nat :=
  let z := days + 719468
  let era := z.fdiv 146097
  let dayOfEra := (z - era * 146097).toNat
  let yearOfEra :=
    (dayOfEra - dayOfEra / 1460 + dayOfEra / 36524 - dayOfEra / 146096) / 365
  let dayOfYear := dayOfEra - (365 * yearOfEra + yearOfEra / 4 - yearOfEra / 100)
  let m := (5 * dayOfYear + 2) / 153
  let day := dayOfYear - (153 * m + 2) / 5 + 1
  let month := if m < 10 then m + 3 else m - 9
  let year := (yearOfEra : Int) + era * 400
  (if month ≤ 2 then year + 1 else year, month, day)

/-- The first and the last millisecond that the calendar knows. -/
def firstMilli : Int := -8334601228800000

/-- The last millisecond that the calendar knows. -/
def lastMilli : Int := 8210266876799999

/-- The moment of a time, if the calendar knows it. -/
def moment? (ms : Int) : Option Moment :=
  if firstMilli ≤ ms ∧ ms ≤ lastMilli then
    let days := ms.fdiv 86400000
    let rest := (ms - days * 86400000).toNat
    let (year, month, day) := civil days
    some ⟨year, month, day, rest / 3600000, rest / 60000 % 60, rest / 1000 % 60, rest % 1000⟩
  else none

/-- A number with zeros in front of it up to a width. -/
def padded (width n : Nat) : String :=
  let ds := Decimal.digitList n
  String.ofList (List.replicate (width - ds.length) '0' ++ ds)

/-- A year: four digits, and a sign if it needs more or is negative. -/
def yearText (year : Int) : String :=
  if year < 0 then "-" ++ padded 4 year.natAbs
  else if 9999 < year then "+" ++ padded 5 year.natAbs
  else padded 4 year.natAbs

namespace Moment

/-- The date. -/
def dateText (t : Moment) : String :=
  yearText t.year ++ "-" ++ padded 2 t.month ++ "-" ++ padded 2 t.day

/-- The time of day. -/
def timeText (t : Moment) : String :=
  padded 2 t.hour ++ ":" ++ padded 2 t.minute ++ ":" ++ padded 2 t.second

/-- Date and time with their zone; milliseconds are written if there are any. -/
def zoned (t : Moment) : String :=
  t.dateText ++ "T" ++ t.timeText ++
    (if t.milli = 0 then "" else "." ++ padded 3 t.milli) ++ "+00:00"

/-- Date and time down to seconds, with the mark of universal time. -/
def stamp (t : Moment) : String :=
  t.dateText ++ "T" ++ t.timeText ++ "Z"

/-- Date and time for readers. -/
def readable (t : Moment) : String :=
  t.dateText ++ " " ++ t.timeText ++ " UTC"

end Moment

/-- A time for readers, as a number if the calendar does not know it. -/
def readable (ms : Int) : String :=
  match moment? ms with
  | some t => t.readable
  | none => toString ms

/-- A time down to seconds, as a number if the calendar does not know it. -/
def stamp (ms : Int) : String :=
  match moment? ms with
  | some t => t.stamp
  | none => toString ms

end BenchHistory.Calendar
