import CrashTriage.Config.Basic
import CrashTriage.Plist.Reader
import CrashTriage.Plist.Writer
import CrashTriage.Script.Instruction
import CrashTriage.Script.Shell
import CrashTriage.Syslog

/-
The content of includes: the text of a file, a property list as XML, or what a command prints. The
system log is narrowed to the time before the crash, when that is known.
-/
namespace CrashTriage

/-- Why a command line cannot be handed to a shell. -/
inductive SpawnProblem where
  | nulInLine
  | tooLong
deriving DecidableEq, Repr

namespace SpawnProblem

def message : SpawnProblem → Text
  | .nulInLine => "nul byte found in provided data".toList
  | .tooLong => "Argument list too long (os error 7)".toList

end SpawnProblem

inductive IncludeError where
  | read (path : Path) (cause : OsError)
  /-- A property list that cannot be read as a file, or else as a property list. -/
  | plist (path : Path) (cause : Option OsError)
  | spawn (line : Text) (cause : SpawnProblem)
  | command (line : Text) (status : ExitStatus)
deriving DecidableEq, Repr

namespace OsError

/-- The error's number, the kind it belongs to, and its name, as a list of fields. -/
def fields (e : OsError) : Text :=
  let name := Text.trimEnd (e.message.takeWhile (· != '('))
  let (code, kind) := match e with
    | .notFound => ("2", "NotFound")
    | .badDescriptor => ("9", "Uncategorized")
    | .denied => ("13", "PermissionDenied")
    | .busy => ("16", "ResourceBusy")
    | .alreadyExists => ("17", "AlreadyExists")
    | .notDirectory => ("20", "NotADirectory")
    | .isDirectory => ("21", "IsADirectory")
    | .nameTooLong => ("36", "InvalidFilename")
    | .notEmpty => ("39", "DirectoryNotEmpty")
    | .nulInName | .nulInArgument => ("22", "InvalidInput")
    | .argumentsTooLong => ("7", "ArgumentListTooLong")
  "Io(Os \x7b code: ".toList ++ code.toList ++ ", kind: ".toList ++ kind.toList ++
    ", message: \"".toList ++ name ++ "\" \x7d)".toList

end OsError

namespace IncludeError

def message : IncludeError → Text
  | .read path cause => "failed to read ".toList ++ path ++ ": ".toList ++ cause.message
  | .plist path cause =>
    "failed to decode plist ".toList ++ path ++ ": ".toList ++
      ((cause.map OsError.fields).getD "InvalidData".toList)
  | .spawn line cause =>
    "failed to run \x60".toList ++ line ++ "\x60: ".toList ++ cause.message
  | .command line status =>
    '\x60' :: line ++ "\x60 exited with ".toList ++ status.message

end IncludeError

/-- What an include may depend on besides files. -/
structure IncludeContext where
  syslogPath : Path
  crashDate : Option Moment
  window : Int
deriving DecidableEq, Repr

namespace IncludeContext

def ofConfig (c : Config) (crashDate : Option Moment) : IncludeContext :=
  ⟨c.syslogPath, crashDate, c.syslogWindow⟩

end IncludeContext

namespace Include

def fileContent (d : Disk) (ctx : IncludeContext) (path : Path) : Except IncludeError Text :=
  match d.readText path with
  | .error e => .error (.read path e)
  | .ok text =>
    match ctx.crashDate with
    | some date =>
      if Path.same path ctx.syslogPath then .ok (Syslog.narrow text date ctx.window) else .ok text
    | none => .ok text

def plistContent (d : Disk) (path : Path) : Except IncludeError Text :=
  match d.read path with
  | .error e => .error (.plist path (some e))
  | .ok bytes =>
    match (Plist.read? bytes).bind Plist.writeXml? with
    | some text => .ok text
    | none => .error (.plist path none)

/-- The size in bytes that a command line stays below. -/
def lineLimit : Nat := 131072

/-- What a command prints; the files it changes stay changed. -/
def commandContent (line : Text) : StateM Disk (Except IncludeError Text) := do
  if line.elem '\x00' then return .error (.spawn line .nulInLine)
  if Text.byteSize line ≥ lineLimit then return .error (.spawn line .tooLong)
  let result ← Shell.run line
  if result.status.isSuccess then return .ok (Bytes.toText result.output)
  else return .error (.command line result.status)

/-- The content of an include. -/
def content (ctx : IncludeContext) (e : Include) : StateM Disk (Except IncludeError Text) := do
  match e.kind with
  | .file => return fileContent (← get) ctx e.target
  | .plist => return plistContent (← get) e.target
  | .command => commandContent e.target

end Include

end CrashTriage
