import CrashTriage.Text.Basic

/-
Options of the log output: its form and its level. Names are read without regard to the case of
letters.
-/
namespace CrashTriage

inductive LogFormat where
  | pretty
  | json
deriving DecidableEq, Repr

inductive LogLevel where
  | error
  | warn
  | info
  | debug
  | trace
deriving DecidableEq, Repr

inductive LoggingError where
  | invalidFormat (value : Text)
  | invalidLevel (value : Text)
deriving DecidableEq, Repr

namespace LoggingError

def message : LoggingError → Text
  | .invalidFormat value =>
    "Invalid log format: ".toList ++ value ++ ". Use 'pretty' or 'json'".toList
  | .invalidLevel value =>
    "Invalid log level: ".toList ++ value ++
      ". Use 'error', 'warn', 'info', 'debug', or 'trace'".toList

end LoggingError

/-- The entry whose names hold `value`. -/
def findNamed? (names : List (α × List String)) (value : Text) : Option α :=
  (names.find? fun entry => entry.2.any fun n => n.toList == Text.toLowerAscii value).map (·.1)

namespace LogFormat

def names : List (LogFormat × List String) := [(.pretty, ["pretty", "dev"]), (.json, ["json"])]

def read (value : Text) : Except LoggingError LogFormat :=
  match findNamed? names value with
  | some format => .ok format
  | none => .error (.invalidFormat value)

end LogFormat

namespace LogLevel

def names : List (LogLevel × List String) :=
  [(.error, ["error", "err"]), (.warn, ["warn", "warning"]), (.info, ["info"]),
    (.debug, ["debug", "dbg"]), (.trace, ["trace"])]

def read (value : Text) : Except LoggingError LogLevel :=
  match findNamed? names value with
  | some level => .ok level
  | none => .error (.invalidLevel value)

end LogLevel

end CrashTriage
