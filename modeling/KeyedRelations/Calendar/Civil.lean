import KeyedRelations.Text.Layout

/-!
# Civil time

A moment is a number of seconds since the beginning of 1970, in UTC. `CivilTime.ofSeconds` gives
its date in the Gregorian calendar, which is extended in both directions, and its time of day.
-/

namespace KeyedRelations

/-- A date and a time of day; the day of the year counts from zero. -/
structure CivilTime where
  year : Int
  month : Nat
  day : Nat
  hour : Nat
  minute : Nat
  second : Nat
  /-- Days since Sunday. -/
  weekday : Nat
  dayOfYear : Nat
  /-- Seconds since the beginning of 1970. -/
  seconds : Int

namespace CivilTime

def isLeap (year : Int) : Bool :=
  year % 4 == 0 && (year % 100 != 0 || year % 400 == 0)

/-- The number of days before each month of a common year that starts in March. -/
def daysBeforeMonth (month : Nat) : Nat := (153 * month + 2) / 5

/-- The date of a day since the beginning of 1970. Years are counted from March, so that the leap
day is the last of its year, and in cycles of four hundred. -/
def ofDay (day : Int) : Int × Nat × Nat :=
  let shifted := day + 719468
  let cycle := shifted / 146097
  let dayOfCycle := (shifted % 146097).toNat
  let yearOfCycle :=
    (dayOfCycle - dayOfCycle / 1460 + dayOfCycle / 36524 - dayOfCycle / 146096) / 365
  let dayOfYear := dayOfCycle - (365 * yearOfCycle + yearOfCycle / 4 - yearOfCycle / 100)
  let month := (5 * dayOfYear + 2) / 153
  let dayOfMonth := dayOfYear - daysBeforeMonth month + 1
  let year : Int := yearOfCycle + cycle * 400
  if month < 10 then (year, month + 3, dayOfMonth) else (year + 1, month - 9, dayOfMonth)

/-- The number of days of a month. -/
def monthLength (year : Int) (month : Nat) : Nat :=
  if month = 2 then if isLeap year then 29 else 28
  else if month ∈ [4, 6, 9, 11] then 30
  else 31

/-- The day since the beginning of 1970 that has a date. -/
def dayOf (year : Int) (month day : Nat) : Int :=
  let year := if month ≤ 2 then year - 1 else year
  let yearOfCycle := year % 400
  let dayOfYear := daysBeforeMonth ((month + 9) % 12) + day - 1
  year / 400 * 146097 + 365 * yearOfCycle + yearOfCycle / 4 - yearOfCycle / 100 + dayOfYear - 719468

/-- The days of a year before one of its months. -/
def daysBefore (year : Int) (month : Nat) : Nat :=
  let common := [0, 31, 59, 90, 120, 151, 181, 212, 243, 273, 304, 334].getD (month - 1) 0
  if 2 < month ∧ isLeap year then common + 1 else common

/-- The civil time of a moment. -/
def ofSeconds (seconds : Int) : CivilTime :=
  let day := seconds / 86400
  let rest := (seconds % 86400).toNat
  let (year, month, dayOfMonth) := ofDay day
  { year, month, day := dayOfMonth
    hour := rest / 3600
    minute := rest / 60 % 60
    second := rest % 60
    weekday := ((day + 4) % 7).toNat
    dayOfYear := daysBefore year month + dayOfMonth - 1
    seconds }

variable (t : CivilTime)

def weekdayName : String :=
  ["Sunday", "Monday", "Tuesday", "Wednesday", "Thursday", "Friday", "Saturday"].getD t.weekday ""

def monthName : String :=
  ["January", "February", "March", "April", "May", "June", "July", "August", "September",
    "October", "November", "December"].getD (t.month - 1) ""

/-- The hour on a clock of twelve. -/
def clockHour : Nat := if t.hour % 12 = 0 then 12 else t.hour % 12

/-- The number of weeks in a year whose days before the first Thursday belong to the year before. -/
def weeksIn (year : Int) : Int :=
  let startOf (y : Int) : Int := (y + y / 4 - y / 100 + y / 400) % 7
  if startOf year = 4 ∨ startOf (year - 1) = 3 then 53 else 52

/-- The year and the number of a week that starts on Monday and belongs to the year of its
Thursday. -/
def week : Int × Int :=
  let weekdayFromMonday : Int := if t.weekday = 0 then 7 else t.weekday
  let number : Int := ((t.dayOfYear : Int) + 1 - weekdayFromMonday + 10) / 7
  if number < 1 then (t.year - 1, weeksIn (t.year - 1))
  else if weeksIn t.year < number then (t.year + 1, 1)
  else (t.year, number)

/-- A number from zero on, with zeros before it up to a width. -/
def padded (width : Nat) (n : Int) : String := Text.zeroPadded width n.toNat

/-- The date from the year on, which has at least as many digits as the width says. -/
def date (yearWidth : Nat) : String :=
  Text.signedPadded yearWidth t.year ++ "-" ++ padded 2 t.month ++ "-" ++ padded 2 t.day

def clock : String :=
  padded 2 t.hour ++ ":" ++ padded 2 t.minute ++ ":" ++ padded 2 t.second

end CivilTime

end KeyedRelations
