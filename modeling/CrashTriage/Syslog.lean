import CrashTriage.Calendar.Written

/-
Narrowing a system log to the time before a crash. Stamps carry no year: one that would lie more
than a day after the crash is taken to be of the year before. A line without a stamp goes with the
line before it, and is dropped when there is none.
-/
namespace CrashTriage

namespace Syslog

open Text

/-- The time of a line, seen from a crash. -/
def stampBefore? (line : Text) (crash : Moment) : Option Moment :=
  let inYear := Moment.readLineStamp? line crash.date.year
  let latest := crash.instant.shift 86400
  match inYear.filter fun stamp => stamp.instant.le latest with
  | some stamp => some stamp
  | none => Moment.readLineStamp? line (crash.date.year - 1)

def inWindow (crash : Moment) (window : Int) (stamp : Moment) : Bool :=
  (crash.instant.shift (-(max window 0))).le stamp.instant && stamp.instant.le crash.instant

/-- The lines to keep, `keep` telling whether the line before them was kept. -/
def keepLines (crash : Moment) (window : Int) : (keep : Bool) → List Text → List Text
  | _, [] => []
  | keep, line :: rest =>
    let keep := match stampBefore? line crash with
      | some stamp => inWindow crash window stamp
      | none => keep
    if keep then line :: keepLines crash window keep rest else keepLines crash window keep rest

/-- The lines stamped at most `window` seconds before the crash and not after it. -/
def narrow (text : Text) (crash : Moment) (window : Int) : Text :=
  (keepLines crash window false (pieces text)).flatten

end Syslog

end CrashTriage
