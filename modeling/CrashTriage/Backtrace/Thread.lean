import CrashTriage.Backtrace.Frame

/-
The backtraces of a report: sections headed `Thread N:` or `Thread N Crashed:`, each with its frame
lines up to a blank line or the next heading. A line `Thread N name: NAME` names a thread wherever
it stands before the image table; of several the last counts, and it goes to the first section with
that number.
-/
namespace CrashTriage

structure Thread where
  index : Nat
  crashed : Bool
  name : Option Text
  frames : List Frame
deriving DecidableEq, Repr

/-- What a line means to a reader of backtraces. -/
inductive BacktraceLine where
  | stack (index : Nat) (crashed : Bool)
  | naming (index : Nat) (name : Text)
  /-- A heading that ends a stack, such as that of a register dump. -/
  | state
  | blank
  | other (text : Text)
deriving DecidableEq, Repr

namespace BacktraceLine

open Text

def imagesHeading : Text := "Binary Images:".toList

def startsImages (line : Text) : Bool := startsWith line imagesHeading

/-- Reads what follows `Thread ` on a heading line. -/
def readHeading? (rest : Text) : Option BacktraceLine := do
  let digits := rest.takeWhile isDigit
  if digits.isEmpty then none
  let index ← readIndex? digits
  let tail := trim (rest.drop digits.length)
  if tail = [':'] then pure (.stack index false)
  else if tail = "Crashed:".toList then pure (.stack index true)
  else match strip? "name:".toList tail with
    | some name => pure (.naming index (trim name))
    | none =>
      if startsWith tail "crashed with".toList || endsWith tail "State:".toList then pure .state
      else none

def ofLine (line : Text) : BacktraceLine :=
  match (strip? "Thread ".toList line).bind readHeading? with
  | some heading => heading
  | none => if allBlank line then .blank else .other line

end BacktraceLine

namespace Thread

open Text

/-- Where the reader stands: sections read so far with the latest first, names, and whether frame
lines are expected. -/
structure Progress where
  sections : List Thread
  names : List (Nat × Text)
  inStack : Bool

def Progress.start : Progress := ⟨[], [], false⟩

/-- Adds a frame to the latest section. -/
def addFrame (frame : Frame) : List Thread → List Thread
  | [] => []
  | t :: rest => { t with frames := t.frames ++ [frame] } :: rest

def Progress.step (p : Progress) (line : Text × Nat) : Progress :=
  match BacktraceLine.ofLine line.1 with
  | .stack index crashed => { p with sections := ⟨index, crashed, none, []⟩ :: p.sections, inStack := true }
  | .naming index name => { p with names := (index, name) :: p.names, inStack := false }
  | .state => { p with inStack := false }
  | .blank => { p with inStack := false }
  | .other text =>
    if p.inStack then
      match Frame.read? text line.2 with
      | some frame => { p with sections := addFrame frame p.sections }
      | none => p
    else p

/-- Gives each name to the first section with its number. The latest name of a number stands first
in `names`. -/
def assignNames (names : List (Nat × Text)) : List Thread → List Thread
  | [] => []
  | t :: rest =>
    { t with name := names.lookup t.index } ::
      assignNames (names.filter fun n => n.1 != t.index) rest

/-- Lines before the image table, without their line ends, numbered from zero. -/
def backtraceLines (text : Text) : List (Text × Nat) :=
  ((fullLines text).map (·.body)).zipIdx.takeWhile fun line => !BacktraceLine.startsImages line.1

def readAll (text : Text) : List Thread :=
  let p := (backtraceLines text).foldl Progress.step Progress.start
  assignNames p.names p.sections.reverse

end Thread

end CrashTriage
