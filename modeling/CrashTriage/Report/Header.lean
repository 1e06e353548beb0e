import CrashTriage.Backtrace.Thread
import CrashTriage.Calendar.Written
import CrashTriage.Image

/-
The parts of a crash report. The header is the block of `Key: value` lines before the first line that
starts with `Thread `; of a repeated key the first line counts. The image table follows its heading
to the end of the report.
-/
namespace CrashTriage

structure Sections where
  /-- Header keys with their values, in the order of their first lines. -/
  fields : List (Text × Text)
  threads : List Thread
  images : List Image
deriving DecidableEq, Repr

namespace Sections

open Text

/-- Header keys that hold a blank. -/
def spacedKeys : List Text :=
  ["Hardware Model", "Code Type", "Parent Process", "OS Version", "Report Version",
    "Exception Type", "Exception Codes", "Crashed Thread", "Incident Identifier",
    "CrashReporter Key"].map String.toList

def isKey (key : Text) : Bool := (!key.isEmpty && !key.any isBlank) || spacedKeys.contains key

/-- The key and value of a header line. -/
def readField? (line : Text) : Option (Text × Text) := do
  let (key, value) ← splitOnce? ':' line
  let key := trim key
  if isKey key then pure (key, trim value) else none

/-- Adds a field unless its key is there. -/
def addField (fields : List (Text × Text)) (field : Text × Text) : List (Text × Text) :=
  if fields.any (·.1 == field.1) then fields else fields ++ [field]

def headerLines (lines : List Text) : List Text :=
  lines.takeWhile fun line =>
    !BacktraceLine.startsImages line && !startsWith line "Thread ".toList

/-- The lines after the first image heading. -/
def imageLines (lines : List Text) : List Text :=
  (lines.dropWhile fun line => !BacktraceLine.startsImages line).drop 1

def read (text : Text) : Sections :=
  let lines := (fullLines text).map (·.body)
  { fields := ((headerLines lines).filterMap readField?).foldl addField []
    threads := Thread.readAll text
    images := (imageLines lines).filterMap Image.readRow? }

def field? (s : Sections) (key : Text) : Option Text := s.fields.lookup key

end Sections

structure Header where
  processName : Text
  pid : Option Int
  processPath : Option Path
  identifier : Option Text
  version : Option Text
  osVersion : Option Text
  exceptionType : Option Text
  date : Moment
  crashedThread : Nat
deriving DecidableEq, Repr

inductive HeaderProblem where
  | missingField (key : Text)
  | badDate (value : Text)
  | noCrashedThread
deriving DecidableEq, Repr

namespace HeaderProblem

def message : HeaderProblem → Text
  | .missingField key => "missing header field '".toList ++ key ++ ['\'']
  | .badDate value => "unrecognized date '".toList ++ value ++ ['\'']
  | .noCrashedThread => "crashed thread not found".toList

end HeaderProblem

namespace Header

open Text

/-- Splits `NAME [PID]`; the number is left out when it is no row of digits. -/
def splitProcess (value : Text) : Text × Option Int :=
  match splitOnce? '[' value, splitLast? ']' value with
  | some (before, _), some (upToClosing, _) =>
    if before.length < upToClosing.length then
      let digits := trim (upToClosing.drop (before.length + 1))
      (trim before,
        if digits.isEmpty || !digits.all isDigit then none else some (readDecimal digits))
    else (trim value, none)
  | _, _ => (trim value, none)

/-- The number that the value of the crashed thread field starts with. -/
def statedThread? (value : Text) : Option Nat :=
  let digits := value.takeWhile isDigit
  if digits.isEmpty then none else readIndex? digits

def build (s : Sections) (thisYear : Int) : Except HeaderProblem Header := do
  let key := "Process".toList
  let some process := s.field? key | throw (.missingField key)
  let (processName, pid) := splitProcess process
  if processName.isEmpty then throw (.missingField key)
  let dateKey := "Date/Time".toList
  let some dateValue := s.field? dateKey | throw (.missingField dateKey)
  let some date := Moment.readCrashDate? dateValue thisYear | throw (.badDate dateValue)
  let stated := (s.field? "Crashed Thread".toList).bind statedThread?
  let marked := (s.threads.find? (·.crashed)).map (·.index)
  let some crashedThread := stated.or marked | throw .noCrashedThread
  pure {
    processName, pid, date, crashedThread
    processPath := s.field? "Path".toList
    identifier := s.field? "Identifier".toList
    version := s.field? "Version".toList
    osVersion := s.field? "OS Version".toList
    exceptionType := s.field? "Exception Type".toList }

end Header

end CrashTriage
