import CrashTriage.Helper.AllowList
import CrashTriage.Host

/-
The privileged helper: a program that may change what the user may not. It is started with a verb and
paths, each of which must be allowed beforehand, and it reports by its exit status alone.
-/
namespace CrashTriage

inductive HelperError where
  | notConfigured
  | notAllowed (path : Path)
  | spawn (program : Path) (cause : OsError)
  /-- A request, as it was written, and how the helper ended. -/
  | failed (request status : Text)
deriving DecidableEq, Repr

namespace HelperError

def message : HelperError → Text
  | .notConfigured => "no privileged helper configured".toList
  | .notAllowed path =>
    "path ".toList ++ path ++ " is outside the directories the helper may touch".toList
  | .spawn program cause =>
    "failed to spawn privileged helper ".toList ++ program ++ ": ".toList ++ cause.message
  | .failed request status =>
    "privileged helper \x60".toList ++ request ++ "\x60 exited with ".toList ++ status

/-- The messages of what lies behind an error. -/
def causes : HelperError → List Text
  | .spawn _ cause => [cause.message]
  | _ => []

end HelperError

/-- Anything that serves requests. -/
abbrev Helper := HelperRequest → HostM HelperError Unit

namespace Host

/-- Makes a request, which is recorded. -/
def ask (helper : Helper) (request : HelperRequest) : HostM HelperError Unit := fun h =>
  helper request { h with asked := request :: h.asked }

/-- Directories that a program named without a slash is looked up in. -/
def programDirectories : List Path := ["/usr/local/bin", "/usr/bin", "/bin"].map String.toList

/-- The program in a file. -/
def programIn (h : Host) (path : Path) : Except OsError Program := do
  let place ← h.disk.locate path
  match h.disk.find? place, h.programs.lookup place with
  | none, _ => throw .notFound
  | some _, some program => pure program
  | some _, none => throw .denied

/-- The program of a name or path. -/
def program (h : Host) (name : Path) : Except OsError Program :=
  if name.any (· == '/') then h.programIn name
  else
    match (programDirectories.filterMap fun d => (h.programIn (Path.join d name)).toOption).head? with
    | some program => .ok program
    | none => .error .notFound

/-- Starts a program with a request, which is recorded. -/
def start (path : Path) (program : Program) (request : HelperRequest) : HostM HelperError ExitStatus :=
  fun h =>
    (.ok (program.status request h.disk),
      { h with
        started := (path, request) :: h.started
        disk := program.effect request h.disk
        history := h.disk :: h.history })

end Host

structure HelperProcess where
  program : Path
  allow : AllowList
deriving DecidableEq, Repr

namespace HelperProcess

/-- The helper that a configuration names. -/
def ofConfig? (c : Config) : Option HelperProcess :=
  c.helper.map fun program => ⟨program, AllowList.ofConfig c⟩

/-- The size in bytes that an argument of a program stays below. -/
def argumentLimit : Nat := 131072

/-- The program, when it can be started with a request. -/
def programFor (p : HelperProcess) (request : HelperRequest) (h : Host) : Except OsError Program := do
  if (p.program :: request.paths).any (·.elem '\x00') then throw .nulInArgument
  let program ← h.program p.program
  if request.paths.any (fun path => Text.byteSize path ≥ argumentLimit) then throw .argumentsTooLong
  pure program

/-- Serves a request whose paths are all allowed. -/
def serve (p : HelperProcess) : Helper := fun request => do
  match p.allow.firstRefused? request.paths with
  | some path => throw (.notAllowed path)
  | none =>
    match p.programFor request (← get) with
    | .error cause => throw (.spawn p.program cause)
    | .ok program =>
      let status ← Host.start p.program program request
      if !status.isSuccess then throw (.failed request.written status.message)

end HelperProcess

end CrashTriage
