/-!
# Moments

A date of the Gregorian calendar, carried back before its time, and a time of
day, to the microsecond. A moment may know its distance from universal time;
one that does not is shown as it stands.

Days are numbered from the first day of the year one. The number decides the
weekday and, with the start of the year, the week, so no rule needs a table of
its own.

## Main definitions

* `Moment`: A date and a time of day.
* `Moment.isValid`: Whether the fields are in range.
* `dayNumber`: The number of a date.
* `dateOf`: The date with a number.
* `Moment.weekday`, `Moment.dayOfYear`, `Moment.isoWeek`: What a calendar says
  of a date.
-/

namespace Liquid

/-- A date and a time of day, and the distance from universal time in microseconds. -/
structure Moment where
  year : Nat
  month : Nat
  day : Nat
  hour : Nat
  minute : Nat
  second : Nat
  micro : Nat
  offset : Option Int
deriving DecidableEq

/-- Whether the year has a 29th of February. -/
def isLeap (year : Nat) : Bool :=
  year % 4 == 0 && (year % 100 != 0 || year % 400 == 0)

/-- The number of days in a month. -/
def daysInMonth (year month : Nat) : Nat :=
  if month == 2 then if isLeap year then 29 else 28
  else if month == 4 || month == 6 || month == 9 || month == 11 then 30
  else 31

/-- The number of days in the years before this one. -/
def daysBeforeYear (year : Nat) : Nat :=
  let past := year - 1
  365 * past + past / 4 - past / 100 + past / 400

/-- The number of days in the months of the year before this one. -/
def daysBeforeMonth (year month : Nat) : Nat :=
  (List.range (month - 1)).foldl (fun days m => days + daysInMonth year (m + 1)) 0

/-- The number of a date; the first day of the year one has the number one. -/
def dayNumber (year month day : Nat) : Nat :=
  daysBeforeYear year + daysBeforeMonth year month + day

/-- The month and day of the day of the year that has `days` days before it, looked for from the
given month on. -/
def monthAndDay (year : Nat) : Nat → Nat → Nat → Nat × Nat
  | 0, month, days => (month, days + 1)
  | fuel + 1, month, days =>
    if days < daysInMonth year month then (month, days + 1)
    else monthAndDay year fuel (month + 1) (days - daysInMonth year month)

/-- The date with a number. The year is the last one that begins no later. -/
def dateOf (number : Nat) : Nat × Nat × Nat :=
  let guess := (number - 1) * 400 / 146097 + 1
  let year := if daysBeforeYear (guess + 1) < number then guess + 1
    else if daysBeforeYear guess < number then guess
    else guess - 1
  let (month, day) := monthAndDay year 11 1 (number - 1 - daysBeforeYear year)
  (year, month, day)

namespace Moment

/-- The microseconds of a second. -/
def microsPerSecond : Nat := 1000000

/-- The microseconds of a day. -/
def microsPerDay : Nat := 86400 * microsPerSecond

/-- Whether the fields are in range: the years have four digits, and the distance from universal
time is less than a day. -/
def isValid (m : Moment) : Bool :=
  1 ≤ m.year && m.year ≤ 9999 && 1 ≤ m.month && m.month ≤ 12
    && 1 ≤ m.day && m.day ≤ daysInMonth m.year m.month
    && m.hour ≤ 23 && m.minute ≤ 59 && m.second ≤ 59 && m.micro < microsPerSecond
    && m.offset.all fun offset => decide (offset.natAbs < microsPerDay)

/-- The number of the date. -/
def number (m : Moment) : Nat :=
  dayNumber m.year m.month m.day

/-- The day of the week, Sunday being zero. -/
def weekday (m : Moment) : Nat :=
  m.number % 7

/-- The number of days in the year before this one. -/
def dayOfYear (m : Moment) : Nat :=
  daysBeforeMonth m.year m.month + m.day - 1

/-- The number of the Monday that begins the first week of a year: the week with its fourth day. -/
def firstMonday (year : Nat) : Nat :=
  let fourth := dayNumber year 1 4
  fourth - (fourth + 6) % 7

/-- The year and the number of the week that begins with a Monday and has the most of its days in
that year. -/
def isoWeek (m : Moment) : Nat × Nat :=
  let year :=
    if m.number < firstMonday m.year then m.year - 1
    else if firstMonday (m.year + 1) ≤ m.number then m.year + 1
    else m.year
  (year, (m.number - firstMonday year) / 7 + 1)

end Moment

end Liquid
