/-!
# Calendar dates

The date and the time of day of a count of seconds since 1970-01-01 00:00:00, in the Gregorian
calendar extended to all years.

Days are counted from 0000-03-01, so that a leap day is the last day of its year.  146097 days make
an era of 400 years, 36524 a century, 1461 four years and 365 one year, where the last century of
an era and every fourth year have one day more.
-/

namespace TableDdl.Log

/-- A second of a day. -/
structure Moment where
  year : Int
  month : Nat
  day : Nat
  hour : Nat
  minute : Nat
  second : Nat
  deriving DecidableEq

/-- The days from 0000-03-01 to 1970-01-01. -/
def daysToEpoch : Int := 719468

/-- The year of an era that holds the era's day `d`. -/
def yearOfEra (d : Nat) : Nat :=
  (d - d / 1460 + d / 36524 - d / 146096) / 365

/-- The first day of a year, counted in its era. -/
def firstDayOfYear (year : Nat) : Nat :=
  365 * year + year / 4 - year / 100

/-- The month, counted from March, of the `d`-th day of a year that begins in March. -/
def monthOfDay (d : Nat) : Nat := (5 * d + 2) / 153

/-- The first day of a month, both counted from March. -/
def firstDayOfMonth (month : Nat) : Nat := (153 * month + 2) / 5

/-- The moment `seconds` after the beginning of 1970. -/
def Moment.ofSeconds (seconds : Int) : Moment :=
  let days := seconds.fdiv 86400 + daysToEpoch
  let clock := (seconds.fmod 86400).toNat
  let era := days.fdiv 146097
  let dayOfEra := (days.fmod 146097).toNat
  let year := yearOfEra dayOfEra
  let dayOfYear := dayOfEra - firstDayOfYear year
  let month := monthOfDay dayOfYear
  { year := era * 400 + (year : Int) + if month < 10 then 0 else 1
    month := if month < 10 then month + 3 else month - 9
    day := dayOfYear - firstDayOfMonth month + 1
    hour := clock / 3600
    minute := clock % 3600 / 60
    second := clock % 60 }

/-- A number of at least two digits. -/
def twoDigits (n : Nat) : String :=
  if n < 10 then "0" ++ toString n else toString n

/-- The moment as `YYYY-MM-DD HH:MM:SS`, the year without zeros in front. -/
def Moment.text (m : Moment) : String :=
  toString m.year ++ "-" ++ twoDigits m.month ++ "-" ++ twoDigits m.day ++ " " ++
    twoDigits m.hour ++ ":" ++ twoDigits m.minute ++ ":" ++ twoDigits m.second

end TableDdl.Log
