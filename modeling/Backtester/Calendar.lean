import Backtester.Number.Notation

/-!
# Calendar

Days are counted from 1 January 1970 in the Gregorian calendar, carried on in both directions, and
times in seconds from the start of that day.

* `Date.dayNumber` — the day of a date.
* `Date.ofDayNumber` — the date of a day, found through the cycles of 400, 100, 4 and 1 years.
* `clockTime` — the time of a date and a time of day.
* `timeText` — a time to the minute, as the console shows it.
-/

namespace Backtester

/-- A date of the Gregorian calendar. -/
structure Date where
  /-- The year; the year before 1 is 0. -/
  year : Int
  /-- The month, from 1 on. -/
  month : Nat
  /-- The day of the month, from 1 on. -/
  day : Nat
deriving DecidableEq

/-- The year has a 29 February. -/
def isLeapYear (year : Int) : Bool :=
  decide (year % 4 = 0) && (decide (year % 100 ≠ 0) || decide (year % 400 = 0))

/-- The lengths of the months of a year. -/
def monthLengths (leap : Bool) : List Nat :=
  [31, if leap then 29 else 28, 31, 30, 31, 30, 31, 31, 30, 31, 30, 31]

/-- The days from 1 January of the year 1 to 1 January of a year. -/
def daysBeforeYear (year : Int) : Int :=
  let y := year - 1
  365 * y + y / 4 - y / 100 + y / 400

/-- The days from 1 January of the year 1 to 1 January 1970. -/
def epochDay : Int := 719162

/-- The days of months with the given lengths. -/
def daysInMonths : List Nat → Nat
  | [] => 0
  | length :: rest => length + daysInMonths rest

/-- The month and the day in it of a day of the year, counted from zero, with the months from
`month` on. -/
def monthOfDay : (month : Nat) → (lengths : List Nat) → (day : Nat) → Nat × Nat
  | month, [], day => (month, day + 1)
  | month, length :: rest, day =>
      if day < length then (month, day + 1) else monthOfDay (month + 1) rest (day - length)

namespace Date

/-- The month exists and has the day. -/
def exists? (d : Date) : Bool :=
  decide (1 ≤ d.month) && decide (1 ≤ d.day) &&
    ((monthLengths (isLeapYear d.year))[d.month - 1]?).any fun length => decide (d.day ≤ length)

/-- The day of a date. -/
def dayNumber (d : Date) : Int :=
  daysBeforeYear d.year + daysInMonths ((monthLengths (isLeapYear d.year)).take (d.month - 1)) +
    (d.day - 1 : Nat) - epochDay

/-- The date of a day. -/
def ofDayNumber (n : Int) : Date :=
  let days := n + epochDay
  let inCycle := (days % 146097).toNat
  -- The last day of a cycle still belongs to its fourth century, and the last day of four years to the
  -- fourth of them.
  let century := min (inCycle / 36524) 3
  let inCentury := inCycle - century * 36524
  let four := inCentury / 1461
  let inFour := inCentury % 1461
  let one := min (inFour / 365) 3
  let year : Int := 400 * (days / 146097) + (100 * century + 4 * four + one : Nat) + 1
  let (month, day) := monthOfDay 1 (monthLengths (isLeapYear year)) (inFour - one * 365)
  ⟨year, month, day⟩

end Date

/-- The first year that dates are written for. -/
def firstYear : Int := -262143

/-- The last year that dates are written for. -/
def lastYear : Int := 262142

/-- The time of a date and a time of day.  A leap second counts as the second before it. -/
def clockTime (date : Date) (hour minute second : Nat) : Option Int :=
  if date.exists? && decide (firstYear ≤ date.year) && decide (date.year ≤ lastYear) &&
      decide (hour ≤ 23) && decide (minute ≤ 59) && decide (second ≤ 60) then
    some (date.dayNumber * 86400 + (hour * 3600 + minute * 60 + min second 59 : Nat))
  else none

/-- A number with zeros before it up to a width. -/
def paddedText (width n : Nat) : String :=
  let digits := decimalDigits n
  String.ofList (List.replicate (width - digits.length) '0' ++ digits)

/-- A year with four digits; before the year 0 and after 9999 with a sign. -/
def yearText (year : Int) : String :=
  if 0 ≤ year ∧ year ≤ 9999 then paddedText 4 year.toNat
  else (if year < 0 then "-" else "+") ++ paddedText 4 year.natAbs

/-- A time to the minute; beyond the years that dates are written for, the number of seconds. -/
def timeText (time : Int) : String :=
  let date := Date.ofDayNumber (time / 86400)
  if firstYear ≤ date.year ∧ date.year ≤ lastYear then
    let second := (time % 86400).toNat
    yearText date.year ++ "-" ++ paddedText 2 date.month ++ "-" ++ paddedText 2 date.day ++ " " ++
      paddedText 2 (second / 3600) ++ ":" ++ paddedText 2 (second / 60 % 60)
  else intText time

end Backtester
