import CrashTriage.Text.Numeral

/-
Failures of a command: what was being done, and what lies behind it, the nearest cause first.
-/
namespace CrashTriage

structure CommandFailure where
  message : Text
  causes : List Text
deriving DecidableEq, Repr

namespace CommandFailure

open Text

/-- A failure seen from what was being done. -/
def behind (message : Text) (cause : Text) (causes : List Text) : CommandFailure :=
  ⟨message, cause :: causes⟩

/-- Lines after the first are moved in by some blanks. -/
def indentedLines (depth : Nat) (t : Text) : Text :=
  joinWith ('\n' :: List.replicate depth ' ') (split '\n' t)

/-- A cause with its number. -/
def numbered (n : Nat) (cause : Text) : Text :=
  let digits := ofNat n
  List.replicate (5 - digits.length) ' ' ++ digits ++ ": ".toList ++ indentedLines 7 cause

def writtenCauses : List Text → List Text
  | [] => []
  | [cause] => [[], "Caused by:".toList, "    ".toList ++ indentedLines 4 cause]
  | causes => [] :: "Caused by:".toList :: causes.zipIdx.map fun (cause, n) => numbered n cause

/-- The lines that tell of a failure. -/
def written (f : CommandFailure) : List Text :=
  ("Error: ".toList ++ f.message) :: writtenCauses f.causes

end CommandFailure

end CrashTriage
