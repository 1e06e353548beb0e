import CrashTriage.Disk.Change

/-
The machine that changes are made on: a disk, failures that are due to happen, and a record of what
went on. Every change is one step; a due failure strikes the next step, which then changes nothing.
-/
namespace CrashTriage

/-- How a program ended. -/
inductive ExitStatus where
  | code (code : Nat)
  | signal (number : Nat)
deriving DecidableEq, Repr

namespace ExitStatus

def isSuccess : ExitStatus → Bool
  | .code 0 => true
  | _ => false

def signalNames : List (Nat × String) :=
  [(1, "SIGHUP"), (2, "SIGINT"), (3, "SIGQUIT"), (4, "SIGILL"), (5, "SIGTRAP"), (6, "SIGABRT"),
    (7, "SIGBUS"), (8, "SIGFPE"), (9, "SIGKILL"), (10, "SIGUSR1"), (11, "SIGSEGV"),
    (12, "SIGUSR2"), (13, "SIGPIPE"), (14, "SIGALRM"), (15, "SIGTERM"), (16, "SIGSTKFLT"),
    (17, "SIGCHLD"), (18, "SIGCONT"), (19, "SIGSTOP"), (20, "SIGTSTP"), (21, "SIGTTIN"),
    (22, "SIGTTOU"), (23, "SIGURG"), (24, "SIGXCPU"), (25, "SIGXFSZ"), (26, "SIGVTALRM"),
    (27, "SIGPROF"), (28, "SIGWINCH"), (29, "SIGIO"), (30, "SIGPWR"), (31, "SIGSYS")]

def message : ExitStatus → Text
  | .code n => "exit status: ".toList ++ Text.ofNat n
  | .signal n =>
    "signal: ".toList ++ Text.ofNat n ++
      match signalNames.lookup n with
      | some name => " (".toList ++ name.toList ++ [')']
      | none => []

end ExitStatus

/-- What a privileged helper can be asked to do. -/
inductive HelperRequest where
  | copy (source destination : Path)
  | move (source destination : Path)
  | delete (path : Path)
deriving DecidableEq, Repr

namespace HelperRequest

def verb : HelperRequest → Text
  | .copy _ _ => "copy".toList
  | .move _ _ => "move".toList
  | .delete _ => "delete".toList

def paths : HelperRequest → List Path
  | .copy a b => [a, b]
  | .move a b => [a, b]
  | .delete p => [p]

/-- The request as words of a command line. -/
def written (r : HelperRequest) : Text := Text.joinWith [' '] (r.verb :: r.paths)

end HelperRequest

/-- A program that serves as a helper: how it ends and what it does to the disk. -/
structure Program where
  status : HelperRequest → Disk → ExitStatus
  effect : HelperRequest → Disk → Disk

structure Host where
  disk : Disk
  programs : List (Place × Program)
  /-- Failures for the coming steps, in their order. -/
  due : List (Option OsError)
  /-- The disks before each step, the latest first. -/
  history : List Disk
  /-- Requests made to helpers, the latest first. -/
  asked : List HelperRequest
  /-- Programs started, the latest first. -/
  started : List (Path × HelperRequest)

/-- A run on a host that can fail. -/
abbrev HostM (ε α : Type) := ExceptT ε (StateM Host) α

namespace Host

def ofDisk (disk : Disk) : Host := ⟨disk, [], [], [], [], []⟩

/-- One step: a change of the disk, unless a failure is due. -/
def step (change : Disk → Except OsError (α × Disk)) : HostM OsError α := fun h =>
  let later := { h with due := h.due.tail, history := h.disk :: h.history }
  match h.due with
  | some e :: _ => (.error e, later)
  | _ =>
    match change h.disk with
    | .error e => (.error e, later)
    | .ok (a, disk) => (.ok a, { later with disk })

/-- A step that succeeds unless a failure is due, and changes nothing. -/
def pause : HostM OsError Unit := step fun d => .ok ((), d)

/-- A change that cannot fail. -/
def change (f : Disk → Disk) : HostM ε Unit := fun h =>
  (.ok (), { h with disk := f h.disk, history := h.disk :: h.history })

/-- A result that is known without the host. -/
def given (result : Except ε α) : HostM ε α := fun h => (result, h)

end Host

end CrashTriage
