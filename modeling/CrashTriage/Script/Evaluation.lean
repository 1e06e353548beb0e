import CrashTriage.Script.Reader

/-
Evaluation of a chain of scripts. Instructions are numbered anew over the whole chain. A denial
removes every link with its title, wherever it stands in the chain; of links with the same title and
target, and of includes with the same kind and target, the first remains.
-/
namespace CrashTriage

structure Evaluation where
  nextOrder : Nat
  includes : List Instruction
  links : List Instruction
  denied : List Text
deriving DecidableEq, Repr

structure EvaluatedScripts where
  links : List Instruction
  includes : List Instruction
deriving DecidableEq, Repr

namespace EvaluatedScripts

def renderingOrder (e : EvaluatedScripts) : List Instruction := e.links ++ e.includes

end EvaluatedScripts

namespace Evaluation

def empty : Evaluation := ⟨0, [], [], []⟩

/-- Adds an instruction at the end of the chain. -/
def add (e : Evaluation) (i : Instruction) (origin : Option Text) : Evaluation :=
  let i := { i with order := e.nextOrder, origin := origin }
  let e := { e with nextOrder := e.nextOrder + 1 }
  match i.directive with
  | .attach _ => { e with includes := e.includes ++ [i] }
  | .contact _ => { e with links := e.links ++ [i] }
  | .deny title => { e with denied := e.denied ++ [title] }

def addScript (e : Evaluation) (s : Script) (origin : Option Text) : Evaluation :=
  s.instructions.foldl (fun e i => e.add i origin) e

/-- Members whose key is none of `seen` and no earlier member's key. -/
def firstBy [BEq κ] (key : α → κ) : (seen : List κ) → List α → List α
  | _, [] => []
  | seen, x :: xs =>
    if seen.contains (key x) then firstBy key seen xs
    else x :: firstBy key (key x :: seen) xs

def isDenied (denied : List Text) (i : Instruction) : Bool :=
  match i.link? with
  | some l => denied.contains l.unlocalizedTitle
  | none => false

def linkKey (i : Instruction) : Option (Text × LinkTarget) :=
  i.link?.map fun l => (l.unlocalizedTitle, l.target)

def sort (is : List Instruction) : List Instruction :=
  is.mergeSort fun a b => a.compare b != .gt

def finish (e : Evaluation) : EvaluatedScripts :=
  { links := sort (firstBy linkKey [] (e.links.filter fun i => !isDenied e.denied i))
    includes := sort (firstBy Instruction.include? [] e.includes) }

def ofScripts (scripts : List Script) : EvaluatedScripts :=
  (scripts.foldl (fun e s => e.addScript s none) empty).finish

end Evaluation

end CrashTriage
