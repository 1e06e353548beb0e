import CrashTriage.Text.Numeral

/-
Dates of the proleptic Gregorian calendar with a time of day and no zone. A leap second is the 59th
second of a minute with a nanosecond count of 10^9 or more. Moments are compared through the
number of their day, their second of the day and their nanosecond.
-/
namespace CrashTriage

structure Date where
  year : Int
  month : Nat
  day : Nat
deriving DecidableEq, Repr

namespace Date

def firstYear : Int := -262143

def lastYear : Int := 262142

def isLeapYear (year : Int) : Bool := year % 4 == 0 && (year % 100 != 0 || year % 400 == 0)

def daysInMonth (year : Int) (month : Nat) : Nat :=
  if month == 2 then (if isLeapYear year then 29 else 28)
  else if month == 4 || month == 6 || month == 9 || month == 11 then 30
  else 31

/-- The date with these fields, if the calendar has one and its year can be held. -/
def of? (year : Int) (month day : Nat) : Option Date :=
  if firstYear ≤ year ∧ year ≤ lastYear ∧ 1 ≤ month ∧ month ≤ 12 ∧ 1 ≤ day ∧
      day ≤ daysInMonth year month then
    some ⟨year, month, day⟩
  else none

/-- Days before the first of January of `year`, from the start of year 1. -/
def daysBeforeYear (year : Int) : Int :=
  let y := year - 1
  y * 365 + y / 4 - y / 100 + y / 400

def daysBeforeMonth (year : Int) (month : Nat) : Nat :=
  (List.range (month - 1)).foldr (fun m days => daysInMonth year (m + 1) + days) 0

/-- Days from the first of January of year 1. -/
def dayNumber (d : Date) : Int :=
  daysBeforeYear d.year + daysBeforeMonth d.year d.month + d.day - 1

/-- The year that is so many seconds after the start of 1970. -/
def yearOfSeconds (seconds : Int) : Int :=
  let day := seconds / 86400 + daysBeforeYear 1970
  let guess := 1970 + seconds / 31556952
  if day < daysBeforeYear guess then guess - 1
  else if daysBeforeYear (guess + 1) ≤ day then guess + 1
  else guess

end Date

/-- A second of the day in 0..86399 and nanoseconds below 2 * 10^9. -/
structure TimeOfDay where
  second : Nat
  nano : Nat
deriving DecidableEq, Repr

namespace TimeOfDay

def of? (hour minute second nano : Nat) : Option TimeOfDay :=
  if hour < 24 ∧ minute < 60 ∧ second < 60 then some ⟨hour * 3600 + minute * 60 + second, nano⟩
  else if hour < 24 ∧ minute < 60 ∧ second = 60 then
    some ⟨hour * 3600 + minute * 60 + 59, nano + 1000000000⟩
  else none

def hour (t : TimeOfDay) : Nat := t.second / 3600

def minute (t : TimeOfDay) : Nat := t.second / 60 % 60

/-- The second of the minute, 60 in a leap second. -/
def secondOfMinute (t : TimeOfDay) : Nat := t.second % 60 + t.nano / 1000000000

/-- The fraction of the second in nanoseconds. -/
def fraction (t : TimeOfDay) : Nat := t.nano % 1000000000

end TimeOfDay

structure Moment where
  date : Date
  time : TimeOfDay
deriving DecidableEq, Repr

/-- A point on the line of seconds, unbounded on both sides. -/
structure Instant where
  second : Int
  nano : Nat
deriving DecidableEq, Repr

namespace Instant

def compare (a b : Instant) : Ordering :=
  (Ord.compare a.second b.second).then (Ord.compare a.nano b.nano)

def le (a b : Instant) : Bool := a.compare b != .gt

/-- The instant `seconds` later. Moving off a leap second lands where the same number of seconds
from the next full second (going back) or from the 59th second (going forward) lands. -/
def shift (a : Instant) (seconds : Int) : Instant :=
  if a.nano < 1000000000 || seconds == 0 then ⟨a.second + seconds, a.nano⟩
  else if seconds < 0 then ⟨a.second + 1 + seconds, a.nano - 1000000000⟩
  else ⟨a.second + seconds, a.nano - 1000000000⟩

end Instant

namespace Moment

def instant (m : Moment) : Instant :=
  ⟨m.date.dayNumber * 86400 + m.time.second, m.time.nano⟩

def compare (a b : Moment) : Ordering := a.instant.compare b.instant

/-- The moment with these calendar fields; none of them may be negative but the year, and seconds
go up to 59. -/
def ofFields? (year month day hour minute second : Int) : Option Moment := do
  if month < 0 || day < 0 || hour < 0 || minute < 0 || second < 0 || second > 59 then none
  let date ← Date.of? year month.toNat day.toNat
  let time ← TimeOfDay.of? hour.toNat minute.toNat second.toNat 0
  pure ⟨date, time⟩

end Moment

end CrashTriage
