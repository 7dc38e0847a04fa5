/-!
# Timestamps

A `Timestamp` is a calendar date of the proleptic Gregorian calendar, a second of that day and a
fraction in nanoseconds. A fraction of a whole second or more marks a leap second, which is written
as the second after. Moving between offsets goes through the day number of a date.
-/

namespace TypedSql

/-- A date of the proleptic Gregorian calendar, with a year 0 and negative years before it. -/
structure Date where
  year : Int
  month : Nat
  day : Nat
  deriving DecidableEq, Repr

namespace Date

/-- Days since 1 March of year 0. Years are counted from March, so that a leap day ends its year. -/
def dayNumber (d : Date) : Int :=
  let year := if d.month ≤ 2 then d.year - 1 else d.year
  let era := year / 400
  let yearOfEra := year % 400
  let month := (d.month + 9) % 12
  let dayOfYear := (153 * month + 2) / 5 + d.day - 1
  era * 146097 + yearOfEra * 365 + yearOfEra / 4 - yearOfEra / 100 + dayOfYear

/-- The date with a given day number. -/
def ofDayNumber (n : Int) : Date :=
  let era := n / 146097
  let dayOfEra := (n % 146097).toNat
  let yearOfEra := (dayOfEra - dayOfEra / 1460 + dayOfEra / 36524 - dayOfEra / 146096) / 365
  let dayOfYear := dayOfEra - (365 * yearOfEra + yearOfEra / 4 - yearOfEra / 100)
  let month := (5 * dayOfYear + 2) / 153
  let year := era * 400 + yearOfEra
  { year := if month < 10 then year else year + 1
    month := if month < 10 then month + 3 else month - 9
    day := dayOfYear - (153 * month + 2) / 5 + 1 }

example : ofDayNumber (dayNumber ⟨2024, 2, 29⟩) = ⟨2024, 2, 29⟩ := by decide
example : ofDayNumber (dayNumber ⟨-1, 12, 31⟩ + 1) = ⟨0, 1, 1⟩ := by decide
example : dayNumber ⟨2000, 3, 1⟩ - dayNumber ⟨1900, 3, 1⟩ = 36525 := by decide

end Date

/-- A date and a time of day without an offset. -/
structure Timestamp where
  date : Date
  secondOfDay : Nat
  /-- At least `10 ^ 9` during a leap second. -/
  nanos : Nat
  deriving DecidableEq, Repr

namespace Timestamp

/-- The timestamp of a date, an hour, a minute, a second and a fraction in nanoseconds. -/
def ofClock (date : Date) (hour minute second nanos : Nat) : Timestamp :=
  ⟨date, hour * 3600 + minute * 60 + second, nanos⟩

/-- Go back by a number of seconds, across day boundaries; the fraction stays as it is. -/
def subSeconds (t : Timestamp) (seconds : Int) : Timestamp :=
  let total := (t.secondOfDay : Int) - seconds
  ⟨.ofDayNumber (t.date.dayNumber + total / 86400), (total % 86400).toNat, t.nanos⟩

/-- The universal time of a local time at an offset of seconds east. -/
def ofLocal (t : Timestamp) (offset : Int) : Timestamp :=
  t.subSeconds offset

/-- A number with leading zeros up to a width. -/
def padded (width n : Nat) : String :=
  let digits := Nat.toDigits 10 n
  String.ofList (List.replicate (width - digits.length) '0' ++ digits)

/-- Years of four digits stand alone; any other year carries its sign. -/
def yearText (year : Int) : String :=
  if 0 ≤ year ∧ year ≤ 9999 then padded 4 year.toNat
  else (if year < 0 then "-" else "+") ++ padded 4 year.natAbs

/-- The fraction with the fewest of 0, 3, 6 and 9 digits that is exact. -/
def fractionText (nanos : Nat) : String :=
  if nanos = 0 then ""
  else if nanos % 1000000 = 0 then "." ++ padded 3 (nanos / 1000000)
  else if nanos % 1000 = 0 then "." ++ padded 6 (nanos / 1000)
  else "." ++ padded 9 nanos

/-- The date and the time joined by `T`; a leap second is the second after its number. -/
def text (t : Timestamp) : String :=
  let second := t.secondOfDay % 60
  let (second, nanos) :=
    if t.nanos < 1000000000 then (second, t.nanos) else (second + 1, t.nanos - 1000000000)
  yearText t.date.year ++ "-" ++ padded 2 t.date.month ++ "-" ++ padded 2 t.date.day ++ "T" ++
    padded 2 (t.secondOfDay / 3600) ++ ":" ++ padded 2 (t.secondOfDay / 60 % 60) ++ ":" ++
    padded 2 second ++ fractionText nanos

end Timestamp

end TypedSql
