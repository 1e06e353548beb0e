import CrashTriage.Cli.Failure
import CrashTriage.Cli.Invocation
import CrashTriage.Cli.Listing
import CrashTriage.Cli.Options
import CrashTriage.Package.Source
import CrashTriage.Symbol.Source

/-
What an invocation does to the machine and what it prints. A command that fails prints the failure and
its causes to the error output; what it had printed before stands.
-/
namespace CrashTriage

/-- What a program wrote and how it ended. -/
structure Outcome where
  code : Nat
  out : Text
  err : Text
deriving DecidableEq, Repr

/-- What the surroundings of a program tell it. -/
structure Surroundings where
  environment : List (Text × Text)
  thisYear : Int
deriving DecidableEq, Repr

/-- The lines that a command printed to its two outputs. -/
structure Printed where
  out : Text
  err : Text
deriving DecidableEq, Repr

/-- Runs of a command, which can print, fail and change the machine. -/
abbrev CommandM (α : Type) := ExceptT CommandFailure (StateT Printed (StateM Host)) α

namespace Command

open Text

def line (t : Text) : Text := t ++ ['\n']

def put (t : Text) : CommandM Unit := modify fun p => { p with out := p.out ++ t }

def putLines (ts : List Text) : CommandM Unit := put (ts.flatMap line)

def warn (t : Text) : CommandM Unit := modify fun p => { p with err := p.err ++ line t }

/-- A run on the machine whose failures are failures of the command. -/
def onHost (failure : ε → CommandFailure) (run : HostM ε α) : CommandM α := fun p h =>
  let (result, h) := run h
  ((result.mapError failure, p), h)

def disk : CommandM Disk := fun p h => ((.ok h.disk, p), h)

/-- A result whose error is a failure of the command. -/
def given (failure : ε → CommandFailure) (result : Except ε α) : CommandM α :=
  onHost failure (Host.given result)

def whileDoing (context : List Text) (message : ε → Text) (causes : ε → List Text) (e : ε) :
    CommandFailure :=
  .behind context.flatten (message e) (causes e)

/-- Prints the indented form of a value, or else lines. -/
def putEither (json : Bool) (value : Json) (lines : List Text) : CommandM Unit :=
  if json then put (line value.pretty) else putLines lines

def loadConfig (s : Surroundings) (config : Option Path) : CommandM Config := do
  match config.or (s.environment.lookup "CRASHREPORT_CONFIG".toList) with
  | some path => given (fun e => ⟨e.message, e.causes⟩) (Config.load (← disk) path)
  | none => pure {}

def loadLog (s : Surroundings) (c : Config) (path : Path) : CommandM CrashLog := do
  given (whileDoing ["Failed to load crash log ".toList, path] LogError.message LogError.causes)
    ((CrashLog.ofPath path).load (← disk) c.osBuildMarker s.thisYear)

/-- Opens the database that a configuration asks for. -/
def openSource (c : Config) : CommandM PackageSource :=
  let context := ["Failed to open package index at ".toList, c.packageIndex.getD []]
  onHost (whileDoing context PackageDbError.message PackageDbError.causes) (PackageSource.ofConfig c)

def helperOf (c : Config) : Option Helper := (HelperProcess.ofConfig? c).map HelperProcess.serve

def runList (c : Config) (directory : Option Path) (json : Bool) : CommandM Unit := do
  let d ← disk
  let groups ← match directory with
    | some path =>
      given (whileDoing ["Failed to scan ".toList, path] FileError.message FileError.causes)
        (LogGroup.scan d path)
    | none =>
      given (whileDoing ["Failed to scan crash log directories".toList] FileError.message
        FileError.causes) (LogGroup.scanConfigured d c)
  putEither json (.list LogGroup.toJson groups)
    (Listing.titled "Crash logs:" (groups.flatMap LogGroup.listed))

def victimOf (d : Disk) (log : CrashLog) : OwnerM (Option Suspect) :=
  match log.victim? with
  | some image => do
    let resolution ← PackageSource.resolve d image.path
    pure (some ⟨image, resolution⟩)
  | none => pure none

def describedBy (d : Disk) (log : CrashLog) : OwnerM LogDescription := do
  let victim ← victimOf d log
  let suspects ← log.suspects (PackageSource.resolve d)
  let potential ← log.potentialSuspects (PackageSource.resolve d)
  pure ⟨log, victim, suspects, potential⟩

def runDescribe (s : Surroundings) (c : Config) (path : Path) (json : Bool) : CommandM Unit := do
  let log := (← loadLog s c path).markViewed
  let source ← openSource c
  let description := source.freshly c (describedBy (← disk) log)
  putEither json description.toJson description.listed

/-- Writes symbols into a log. -/
def symbolicateLog (c : Config) (log : CrashLog) (symbols systemRoot : Option Path) :
    CommandM (SymbolicationSummary × CrashLog) := do
  let chain := SymbolChain.ofConfig c symbols systemRoot
  let (run, _) :=
    (log.symbolicate (SymbolChain.symbolsFor (← disk)) c.tempDir (helperOf c)).run chain
  onHost (whileDoing ["Failed to symbolicate ".toList, log.path] LogError.message LogError.causes) run

def runSymbolicate (s : Surroundings) (c : Config) (path : Path) (symbols systemRoot : Option Path)
    (json : Bool) : CommandM Unit := do
  let log ← loadLog s c path
  let (summary, _) ← symbolicateLog c log symbols systemRoot
  putEither json summary.toJson
    (if log.symbolicated then [path ++ " is already symbolicated".toList] else summary.listed path)

def runReport (s : Surroundings) (c : Config) (path : Path) (symbolicated : Bool)
    (symbols : Option Path) (json : Bool) : CommandM Unit := do
  let log ← loadLog s c path
  let log ← if symbolicated then (·.2) <$> symbolicateLog c log symbols none else pure log
  let source ← openSource c
  let d ← disk
  let built := source.freshly c (Report.build d c (PackageSource.resolve d) log)
  onHost Empty.elim (Host.change fun _ => built.2)
  putEither json built.1.toJson built.1.listed

def runDelete (c : Config) (path : Path) : CommandM Unit := do
  onHost (whileDoing ["Failed to delete ".toList, path] FileError.message FileError.causes)
    ((CrashLog.ofPath path).delete (helperOf c))
  putLines ["Deleted ".toList ++ path]

/-- Makes the directory of a file with those on the way to it. -/
def makeParents (path : Path) : CommandM Unit := do
  match Path.parent? path with
  | some parent =>
    onHost (fun e : OsError => .behind ("Failed to create ".toList ++ parent) e.message [])
      (Host.step (Disk.makeDirectories parent.length parent))
  | none => pure ()

def runIndexPackages (c : Config) (dpkgDir output : Option Path) : CommandM Unit := do
  match output.or c.packageIndex with
  | none =>
    throw ⟨"No index path: pass --output or set package_index in the config".toList, []⟩
  | some output =>
    let dpkgDir := dpkgDir.getD c.dpkgDir
    makeParents output
    let index ← onHost (whileDoing ["Failed to open package index at ".toList, output]
      PackageDbError.message PackageDbError.causes) (PackageIndex.openFile output)
    let (counts, _) ← onHost (whileDoing ["Failed to import dpkg database from ".toList, dpkgDir]
      PackageDbError.message PackageDbError.causes) fun h =>
        let ((result, _), h) := index.importFrom none (.ofDir dpkgDir) h
        (result, h)
    putLines (counts.listed output)

def runCheckScript (path : Path) (json : Bool) : CommandM Unit := do
  let script ← given (fun e : OsError => .behind ("Failed to read script ".toList ++ path) e.message [])
    (Report.readScript (← disk) path)
  let evaluated := Evaluation.ofScripts [script]
  if json then put (line evaluated.toJson.pretty)
  else put (script.write ++ line evaluated.listedCounts)
  if !script.errors.isEmpty then
    script.errors.forM fun e => warn (path ++ ": ".toList ++ e.message)
    throw ⟨ofNat script.errors.length ++ " invalid line(s) in ".toList ++ path, []⟩

def run (s : Surroundings) (config : Option Path) (command : Command) : CommandM Unit := do
  match command with
  | .checkScript path json => runCheckScript path json
  | .list directory json => do runList (← loadConfig s config) directory json
  | .describe path json => do runDescribe s (← loadConfig s config) path json
  | .symbolicate path symbols systemRoot json => do
    runSymbolicate s (← loadConfig s config) path symbols systemRoot json
  | .report path symbolicated symbols json => do
    runReport s (← loadConfig s config) path symbolicated symbols json
  | .delete path => do runDelete (← loadConfig s config) path
  | .indexPackages dpkgDir output => do runIndexPackages (← loadConfig s config) dpkgDir output

end Command

namespace Invocation

open Command

/-- Checks the options of the log output; the log itself is not written. -/
def checkLogging (s : Surroundings) (level : Text) : Except LoggingError Unit := do
  let _ ← LogLevel.read level
  if let some value := s.environment.lookup "CRASHREPORT_LOG_FORMAT".toList then
    let _ ← LogFormat.read value

def run (s : Surroundings) (i : Invocation) : CommandM Unit := do
  given (fun e : LoggingError => ⟨e.message, []⟩) (checkLogging s i.logLevel)
  i.command.run s i.config

def versionLine : Text := "crashreport 0.1.0\n".toList

/-- A line on how the program is used. -/
def usage : Text := "Usage: crashreport [OPTIONS] <COMMAND>\n".toList

/-- Runs the program on the words after its name. -/
def runWords (s : Surroundings) (words : List Text) : StateM Host Outcome := fun h =>
  match read words with
  | .error .help => (⟨0, usage, []⟩, h)
  | .error .version => (⟨0, versionLine, []⟩, h)
  | .error .misuse => (⟨2, [], []⟩, h)
  | .ok i =>
    match (i.run s) ⟨[], []⟩ h with
    | ((.ok (), p), h) => (⟨0, p.out, p.err⟩, h)
    | ((.error e, p), h) => (⟨1, p.out, p.err ++ e.written.flatMap line⟩, h)

end Invocation

end CrashTriage
