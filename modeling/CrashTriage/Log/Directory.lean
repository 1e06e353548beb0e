import CrashTriage.Config.Basic
import CrashTriage.Log.CrashLog

/-
The crash logs in a directory, grouped by process. Groups stand in the order of their names; in a
group the newest log comes first, logs without a date last, and logs of one date stand in the order
of their paths.
-/
namespace CrashTriage

structure LogGroup where
  name : Text
  directory : Path
  logs : List CrashLog
deriving DecidableEq, Repr

namespace LogGroup

def newest? (g : LogGroup) : Option CrashLog := g.logs.head?

def unviewedCount (g : LogGroup) : Nat := (g.logs.filter fun log => !log.viewed).length

/-- Leaves out the logs with a path; tells whether there was one. -/
def remove (g : LogGroup) (path : Path) : Bool × LogGroup :=
  (g.logs.any fun log => Path.same log.path path,
    { g with logs := g.logs.filter fun log => !Path.same log.path path })

/-- Later dates first, no date last. -/
def compareDates : Option Moment → Option Moment → Ordering
  | none, none => .eq
  | none, some _ => .gt
  | some _, none => .lt
  | some a, some b => b.compare a

def compareLogs (a b : CrashLog) : Ordering :=
  (compareDates a.date b.date).then (Path.compare a.path b.path)

/-- Texts in ascending order, each once. -/
def sortedNames (names : List Text) : List Text :=
  (names.eraseDups).mergeSort fun a b => Text.compare a b != .gt

def group (directory : Path) (logs : List CrashLog) : List LogGroup :=
  (sortedNames (logs.map (·.name))).map fun name =>
    ⟨name, directory,
      (logs.filter fun log => log.name == name).mergeSort fun a b => compareLogs a b != .gt⟩

/-- Does the file with this path count as a log? -/
def isLogFile (d : Disk) (path : Path) : Bool :=
  (match Path.extension? path with
    | some e => LogName.extensions.contains e
    | none => false) && d.isFile path

/-- The logs among the names in a directory. -/
def logsAmong (d : Disk) (directory : Path) (names : List Text) : List CrashLog :=
  ((names.map (Path.join directory)).filter (isLogFile d)).map CrashLog.ofPath

/-- The groups of a directory; none when it is missing. -/
def scan (d : Disk) (directory : Path) : Except FileError (List LogGroup) :=
  match d.list directory with
  | .ok names => .ok (group directory (logsAmong d directory names))
  | .error .notFound => .ok []
  | .error e => .error (.io directory e none)

/-- The groups of the user's directory, then those of the system's. -/
def scanConfigured (d : Disk) (c : Config) : Except FileError (List LogGroup) := do
  let first ← scan d c.mobileLogDir
  if Path.same c.rootLogDir c.mobileLogDir then pure first
  else pure (first ++ (← scan d c.rootLogDir))

end LogGroup

end CrashTriage
