import CrashTriage.Script.Shell.Execution

/-
A shell that runs one command line: what it prints, how it ends, and what it leaves on the disk. Its
standard input is empty, and what it prints to its error output is not kept.
-/
namespace CrashTriage

namespace Shell

open Text ShellM

/-- How deep commands may be nested, functions that call themselves included. -/
def depthLimit : Nat := 20000

/-- Variables that a shell takes over from whatever starts it. -/
def inheritedVariables (workingDir : Place) : List (Text × Variable) :=
  [("HOME".toList, "/root".toList), ("PATH".toList, Program.searchPath),
    ("PWD".toList, Builtin.pathOf workingDir)].map fun (name, value) => (name, ⟨some value, true, false⟩)

/-- What was printed and how a shell ended. -/
structure Result where
  output : Bytes
  status : ExitStatus
deriving DecidableEq, Repr

/-- The shell before its first command, with the number of the channel it prints to. -/
def startMachine (d : Disk) : Machine × Nat :=
  let descriptors := [(0, 0), (1, 1), (2, 0)]
  let environment := Program.startEnvironment "/bin/sh".toList (inheritedVariables d.workingDir)
    descriptors d.workingDir
  (⟨d, #[.null, .sink []], #[], environment⟩, 1)

/-- Runs a command line in the working directory of a disk. -/
def run (line : Text) : StateM Disk Result := fun d =>
  let r := runner depthLimit
  let (machine, printed) := startMachine d
  let (ended, machine) := (r.toEnd (r.text false (ofChars line))).run machine
  let status := match ended with
    | .error (.killed signal) => ExitStatus.signal signal
    | _ => .code machine.environment.status
  let output := match machine.channels[printed]? with
    | some (.sink written) => toOctets written.reverse.flatten
    | _ => []
  (⟨output, status⟩, { machine.disk with workingDir := d.workingDir })

end Shell

end CrashTriage
