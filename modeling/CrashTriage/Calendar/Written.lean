import CrashTriage.Calendar.Moment

/-
Written dates. Crash reports write `2011-02-03 12:34:56`, with an optional fraction of a second and
an optional offset from universal time, which is checked and dropped: crash dates are compared with
stamps of the system log, which have none. The system log writes `Feb  3 12:34:56` and no year.
Blanks in front of a field are passed over when reading.
-/
namespace CrashTriage

namespace Moment

open Text

/-- Up to `width` digits, at least one, and what follows them. Values are bounded by 2^63. -/
def readDigits? (width : Nat) (t : Text) : Option (Nat × Text) :=
  let digits := (t.take width).takeWhile isDigit
  let value := digits.foldl (fun n c => n * 10 + (c.toNat - 48)) 0
  if digits.isEmpty || value ≥ Nat.pow 2 63 then none else some (value, t.drop digits.length)

def readField? (width : Nat) (t : Text) : Option (Nat × Text) := readDigits? width (trimStart t)

/-- A year has four digits, or a sign and any number of them. -/
def readYear? (t : Text) : Option (Int × Text) :=
  match trimStart t with
  | '-' :: rest => (readDigits? rest.length rest).map fun (n, rest) => (-(n : Int), rest)
  | '+' :: rest => (readDigits? rest.length rest).map fun (n, rest) => ((n : Int), rest)
  | rest => (readDigits? 4 rest).map fun (n, rest) => ((n : Int), rest)

def readClock? (t : Text) : Option ((Nat × Nat × Nat) × Text) := do
  let (hour, t) ← readField? 2 t
  let t ← strip? [':'] t
  let (minute, t) ← readField? 2 t
  let t ← strip? [':'] t
  let (second, t) ← readField? 2 t
  pure ((hour, minute, second), t)

/-- The nanoseconds of a fraction, zero when there is none; digits after the ninth are dropped. -/
def readFraction? (t : Text) : Option (Nat × Text) :=
  match t with
  | '.' :: rest =>
    let digits := rest.takeWhile isDigit
    if digits.isEmpty then none
    else
      let kept := digits.take 9
      let value := kept.foldl (fun n c => n * 10 + (c.toNat - 48)) 0
      some (value * Nat.pow 10 (9 - kept.length), rest.drop digits.length)
  | _ => some (0, t)

def twoDigits? (t : Text) : Option (Nat × Text) :=
  match t with
  | a :: b :: rest =>
    if isDigit a && isDigit b then some ((a.toNat - 48) * 10 + (b.toNat - 48), rest) else none
  | _ => none

/-- The minutes of an offset: a sign, two digits of hours below 24, any colons and blanks, two
digits of minutes. -/
def readOffset? (t : Text) : Option (Int × Text) := do
  let (sign, t) ← match t with
    | '+' :: t => some ((1 : Int), t)
    | '-' :: t => some (-1, t)
    | '−' :: t => some (-1, t)
    | _ => none
  let (hours, t) ← twoDigits? t
  let (minutes, t) ← twoDigits? (t.dropWhile fun c => c == ':' || isBlank c)
  if hours < 24 && minutes < 60 then pure (sign * (hours * 60 + minutes), t) else none

/-- Days whose time in universal time might fall outside the years a date can hold. -/
def offsetFits (m : Moment) (minutes : Int) : Bool :=
  let earliest := (Date.mk Date.firstYear 1 1).dayNumber * 86400
  let latest := (Date.mk Date.lastYear 12 31).dayNumber * 86400 + 86399
  let universal := m.instant.second - minutes * 60
  earliest ≤ universal && universal ≤ latest

/-- The form crash reports use, read to the end of `t`. -/
def readCrashForm? (t : Text) : Option Moment := do
  let (year, t) ← readYear? t
  let t ← strip? ['-'] t
  let (month, t) ← readField? 2 t
  let t ← strip? ['-'] t
  let (day, t) ← readField? 2 t
  let ((hour, minute, second), t) ← readClock? (trimStart t)
  let (nano, t) ← readFraction? t
  let date ← Date.of? year month day
  let time ← TimeOfDay.of? hour minute second nano
  if t.isEmpty then return ⟨date, time⟩
  let (offset, t) ← readOffset? (trimStart t)
  if t.isEmpty && offsetFits ⟨date, time⟩ offset then pure ⟨date, time⟩ else none

def monthNames : List Text :=
  ["Jan", "Feb", "Mar", "Apr", "May", "Jun", "Jul", "Aug", "Sep", "Oct", "Nov", "Dec"].map
    String.toList

/-- The number of a month from its three letters in either case. -/
def readMonthName? (t : Text) : Option (Nat × Text) :=
  let name := toLowerAscii (t.take 3)
  (monthNames.findIdx? fun m => toLowerAscii m == name).map fun i => (i + 1, t.drop 3)

/-- A stamp of the system log in the year before it: `2011 Feb  3 12:34:56`. -/
def readDatedStamp? (t : Text) : Option Moment := do
  let (year, t) ← readYear? t
  let (month, t) ← readMonthName? (trimStart t)
  let (day, t) ← readField? 2 (trimStart t)
  let ((hour, minute, second), t) ← readClock? (trimStart t)
  let date ← Date.of? year month day
  let time ← TimeOfDay.of? hour minute second 0
  if t.isEmpty then pure ⟨date, time⟩ else none

/-- A stamp of the system log, the year being supplied. -/
def readStamp? (stamp : Text) (year : Int) : Option Moment :=
  readDatedStamp? (ofInt year ++ ' ' :: trim stamp)

/-- Bytes of a written stamp. -/
def stampSize : Nat := 15

/-- The stamp at the head of a line of the system log. -/
def readLineStamp? (line : Text) (year : Int) : Option Moment := do
  readStamp? (← takeBytes? stampSize line) year

/-- The value of a crash report's date field: its own form, or a stamp in `thisYear`. -/
def readCrashDate? (value : Text) (thisYear : Int) : Option Moment :=
  let value := trim value
  (readCrashForm? value).or (readStamp? value thisYear)

def clock (t : TimeOfDay) : Text :=
  padded 2 t.hour ++ ':' :: padded 2 t.minute ++ ':' :: padded 2 t.secondOfMinute

/-- The stamp of the system log: month name, day filled with a blank, clock. -/
def stamp (m : Moment) : Text :=
  let day := ofNat m.date.day
  (monthNames[m.date.month - 1]?).getD [] ++ ' ' ::
    List.replicate (2 - day.length) ' ' ++ day ++ ' ' :: clock m.time

/-- Four digits, or a sign and at least four for years outside 0..9999. -/
def writtenYear (year : Int) : Text :=
  if 0 ≤ year ∧ year ≤ 9999 then padded 4 year.natAbs
  else (if year < 0 then '-' else '+') :: padded 4 year.natAbs

def writtenDate (d : Date) : Text :=
  writtenYear d.year ++ '-' :: padded 2 d.month ++ '-' :: padded 2 d.day

/-- The fraction in 3, 6 or 9 digits, whichever is the fewest that are exact; nothing for zero. -/
def writtenFraction (nano : Nat) : Text :=
  if nano == 0 then []
  else if nano % 1000000 == 0 then '.' :: padded 3 (nano / 1000000)
  else if nano % 1000 == 0 then '.' :: padded 6 (nano / 1000)
  else '.' :: padded 9 nano

/-- Date, `separator`, clock and fraction. -/
def written (separator : Char) (m : Moment) : Text :=
  writtenDate m.date ++ separator :: clock m.time ++ writtenFraction m.time.fraction

/-- Date and clock without a fraction, as listings show them. -/
def listed (m : Moment) : Text := writtenDate m.date ++ ' ' :: clock m.time

end Moment

end CrashTriage
