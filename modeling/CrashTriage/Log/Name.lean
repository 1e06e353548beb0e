import CrashTriage.Calendar.Moment
import CrashTriage.Path
import CrashTriage.Text.Numeral

/-
What the name and the path of a log tell. A log file is named `PROCESS_YYYY-MM-DD-HHMMSS`, perhaps
with `_DEVICE` after it, and an extension. A name that does not follow this pattern is the process
name as a whole.
-/
namespace CrashTriage

/-- The kind of process that crashed. -/
inductive LogType where
  | app
  | appExtension
  | service
deriving DecidableEq, Repr

namespace LogType

def ofProcessPath (path : Path) : LogType :=
  if Text.contains path ".appex/".toList then .appExtension
  else if Text.contains path ".app/".toList then .app
  else .service

def code : LogType → Text
  | .app => "app".toList
  | .appExtension => "app-extension".toList
  | .service => "service".toList

def label : LogType → Text
  | .app => "App".toList
  | .appExtension => "AppExtension".toList
  | .service => "Service".toList

end LogType

namespace LogName

open Text

def extensions : List Text := ["crash".toList, "ips".toList]

/-- Characters of a written date. -/
def dateSize : Nat := 17

def isDateShape (t : Text) : Bool :=
  t.length == dateSize &&
    t.zipIdx.all fun (c, i) => if i == 4 || i == 7 || i == 10 then c == '-' else isDigit c

/-- The moment written as `YYYY-MM-DD-HHMMSS`. -/
def readDate? (t : Text) : Option Moment :=
  let field := fun start stop => readDecimal ((t.take stop).drop start)
  if isDateShape t then
    Moment.ofFields? (field 0 4) (field 5 7) (field 8 10) (field 11 13) (field 13 15) (field 15 17)
  else none

/-- The date at the head of a text, if the text or a device name after an underscore ends there. -/
def readDateField? (t : Text) : Option Moment :=
  match t.drop dateSize with
  | [] | '_' :: _ => readDate? (t.take dateSize)
  | _ => none

/-- Splits at the first underscore that a date follows; `before` is what stands before `t`. -/
def splitFrom? (before : Text) : Text → Option (Text × Moment)
  | [] => none
  | c :: t =>
    if c = '_' && !before.isEmpty then
      match readDateField? t with
      | some date => some (before, date)
      | none => splitFrom? (before ++ [c]) t
    else splitFrom? (before ++ [c]) t

/-- The process name and the date in the stem of a file name. -/
def splitStem? (stem : Text) : Option (Text × Moment) := splitFrom? [] stem

/-- The process name and the date that the name of a log file tells. -/
def read (path : Path) : Text × Option Moment :=
  let stem := (Path.stem? path).getD []
  match splitStem? stem with
  | some (name, date) => (name, some date)
  | none => (stem, none)

end LogName

end CrashTriage
