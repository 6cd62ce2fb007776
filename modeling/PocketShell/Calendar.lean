import PocketShell.Text.Column

/-!
# Calendar time

An instant is a number of seconds since the start of 1970, read on a clock that stands some seconds
ahead of the universal one. A `Clock` says what is read each time; `Moment.text` writes an instant
as a date, a time of day and the zone of the clock. Dates follow the Gregorian rules in both
directions: years are counted from March, so that a leap day is the last of its year, and 400 of
them make a cycle of 146097 days.
-/

namespace PocketShell.Calendar

/-- An instant on a clock. -/
structure Moment where
  /-- Seconds since the start of 1970, universal time. -/
  seconds : Int
  /-- Seconds by which the clock is ahead. -/
  offset : Int
  deriving DecidableEq, Repr

/-- A clock. It is read time and again, and may show any moment each time. -/
structure Clock where
  /-- What it shows when it has been read so many times before. -/
  shows : Nat → Moment

namespace Clock

/-- The moment that it is now. -/
def now (clock : Clock) : Moment :=
  clock.shows 0

/-- The clock once it has been read. -/
def later (clock : Clock) : Clock where
  shows readings := clock.shows (readings + 1)

/-- A clock that stands still. -/
def still (moment : Moment) : Clock where
  shows _ := moment

instance : Coe Moment Clock := ⟨still⟩

end Clock

/-- A day of the calendar. -/
structure Date where
  year : Int
  /-- From 1 to 12. -/
  month : Nat
  /-- From 1 to 31. -/
  day : Nat
  deriving DecidableEq, Repr

/-- The days of a cycle of 400 years. -/
def cycleDays : Nat := 146097

/-- The days from the first of March of the year 0 to the start of 1970. -/
def epochShift : Nat := 719468

/-- The year of a cycle, counted from March, in which a day of the cycle lies. -/
def yearOfCycle (day : Nat) : Nat :=
  (day - day / 1460 + day / 36524 - day / 146096) / 365

/-- The days of a cycle before a year of it. -/
def daysBeforeYear (year : Nat) : Nat :=
  365 * year + year / 4 - year / 100

/-- The month, counted from March, in which a day of a year lies. -/
def monthOfYear (day : Nat) : Nat :=
  (5 * day + 2) / 153

/-- The days of a year before a month, both counted from March. -/
def daysBeforeMonth (month : Nat) : Nat :=
  (153 * month + 2) / 5

/-- The date of the day that is `days` after the first of 1970. -/
def Date.ofDays (days : Int) : Date :=
  let shifted := days + epochShift
  let day := (shifted % cycleDays).toNat
  let year := yearOfCycle day
  let dayOfYear := day - daysBeforeYear year
  let month := monthOfYear dayOfYear
  { year := year + shifted / cycleDays * 400 + (if month < 10 then 0 else 1)
    month := if month < 10 then month + 3 else month - 9
    day := dayOfYear - daysBeforeMonth month + 1 }

/-- The short names of the weekdays; the days are counted from a Thursday. -/
def weekdayName (days : Int) : String :=
  match (days % 7).toNat with
  | 0 => "Thu"
  | 1 => "Fri"
  | 2 => "Sat"
  | 3 => "Sun"
  | 4 => "Mon"
  | 5 => "Tue"
  | _ => "Wed"

/-- The short names of the months. -/
def monthName (month : Nat) : String :=
  match month with
  | 1 => "Jan"
  | 2 => "Feb"
  | 3 => "Mar"
  | 4 => "Apr"
  | 5 => "May"
  | 6 => "Jun"
  | 7 => "Jul"
  | 8 => "Aug"
  | 9 => "Sep"
  | 10 => "Oct"
  | 11 => "Nov"
  | _ => "Dec"

/-- A year in at least four digits, with its sign outside the years 0 to 9999. -/
def yearText (year : Int) : String :=
  if 0 ≤ year ∧ year ≤ 9999 then Text.decimalPadded 4 year.natAbs
  else (if year < 0 then "-" else "+") ++ Text.decimalPadded 4 year.natAbs

/-- The offset of a clock as a sign, hours and minutes, to the nearest minute. -/
def zoneText (offset : Int) : String :=
  let minutes := (offset.natAbs + 30) / 60
  (if offset < 0 then "-" else "+") ++ Text.decimalPadded 2 (minutes / 60) ++
    Text.decimalPadded 2 (minutes % 60)

/-- The moment as `Mon Oct 19 2026 14:03:12 GMT+0000`. -/
def Moment.text (moment : Moment) : String :=
  let onClock := moment.seconds + moment.offset
  let days := onClock / 86400
  let second := (onClock % 86400).toNat
  let date := Date.ofDays days
  weekdayName days ++ " " ++ monthName date.month ++ " " ++ Text.decimalPadded 2 date.day ++ " " ++
    yearText date.year ++ " " ++ Text.decimalPadded 2 (second / 3600) ++ ":" ++
    Text.decimalPadded 2 (second / 60 % 60) ++ ":" ++ Text.decimalPadded 2 (second % 60) ++
    " GMT" ++ zoneText moment.offset

example : Date.ofDays 0 = ⟨1970, 1, 1⟩ := by decide

example : Date.ofDays 11016 = ⟨2000, 2, 29⟩ := by decide

end PocketShell.Calendar
